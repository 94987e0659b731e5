import PascalCompiler.Document.Decode
import PascalCompiler.Proofs.Document.Recovery
import PascalCompiler.Proofs.Json.Reading

/-!
# Reading back what a document spells

A document that spells a well-formed tree is read as exactly that tree. Members
are found where the document has them, so every part of a node can be recovered,
and by induction on the spelling every node is.

## Main results

* `Document.readPosition_of_located`: positions are read back
* `Document.reads_of_spells`: so are nodes
* `Document.decode_eq_ok_of_spells`: so are files
-/

namespace PascalCompiler

namespace Numeral

theorem isDigit_of_digits {ds : List Char} {n : Nat} (digits : Digits ds n) :
    ds ≠ [] ∧ ∀ c ∈ ds, c.isDigit := by
  induction digits with
  | single digit => simpa using digit
  | snoc _ digit ih =>
    refine ⟨by simp, List.forall_mem_append.mpr ⟨ih.2, ?_⟩⟩
    simpa using digit

theorem digits?_of_digits {ds : List Char} {n : Nat} (digits : Digits ds n) :
    digits? ds = some n := by
  obtain ⟨nonempty, all⟩ := isDigit_of_digits digits
  have valid : (!ds.isEmpty && ds.all Char.isDigit) = true := by
    simpa [nonempty] using all
  rw [digits?, if_pos valid]
  -- what remains is that the fold computes the value, digit by digit
  refine congrArg some ?_
  clear nonempty all valid
  induction digits with
  | single digit => exact Nat.zero_add _
  | snoc _ digit ih => rw [List.foldl_append, ih, List.foldl_cons, List.foldl_nil]

theorem signed?_of_digits {ds : List Char} {n : Nat} (digits : Digits ds n) :
    signed? ds = some (n : Int) := by
  obtain ⟨nonempty, all⟩ := isDigit_of_digits digits
  obtain ⟨d, rest, rfl⟩ := List.exists_cons_of_ne_nil nonempty
  have digit := all d List.mem_cons_self
  rw [signed?]
  · rw [digits?_of_digits digits]
    rfl
  -- a digit is no sign
  all_goals
    intro others same
    obtain ⟨rfl, -⟩ := List.cons.inj same
    exact absurd digit (by decide)

/-- The numerals of a 64-bit integer are read back. -/
theorem int64?_of_denotes {numeral : String} {value : Int} (denotes : Denotes numeral value)
    (fits : fitsInt64 value) : int64? numeral = some value := by
  have signed : signed? numeral.toList = some value := by
    cases denotes with
    | unsigned digits => rw [String.toList_ofList, signed?_of_digits digits]
    | plus digits =>
      rw [String.toList_ofList, signed?, digits?_of_digits digits]
      rfl
    | minus digits =>
      rw [String.toList_ofList, signed?, digits?_of_digits digits]
      rfl
  rw [int64?, signed, Option.filter_some, if_pos fits]

end Numeral

namespace Document

/-! ### Members -/

section Members

variable {members : List (String × Json)} {name : String} {value : Json} {source : Source}

theorem lookupLast_eq_none {α : Type} {list : List (String × α)}
    (absent : ∀ member ∈ list, member.1 ≠ name) : lookupLast name list = none := by
  induction list with
  | nil => rfl
  | cons member rest ih =>
    obtain ⟨first, others⟩ := List.forall_mem_cons.mp absent
    rw [lookupLast, ih others]
    exact if_neg first

theorem lookupLast_of_holds (holds : Holds members name value) :
    lookupLast name members = some value := by
  obtain ⟨before, after, rfl, absent⟩ := holds
  induction before with
  | nil =>
    rw [List.nil_append, lookupLast, lookupLast_eq_none absent]
    exact if_pos rfl
  | cons member before ih =>
    rw [List.cons_append, lookupLast, ih]

theorem lookupLast_viewMembers (source : Source) (name : String) (members : List (String × Json)) :
    lookupLast name (viewMembers source members) = (lookupLast name members).map (view source) := by
  induction members with
  | nil => rfl
  | cons member rest ih =>
    obtain ⟨key, value⟩ := member
    rw [viewMembers, lookupLast, lookupLast, ih]
    cases lookupLast name rest with
    | some later => rfl
    | none =>
      by_cases same : key = name
      · simp [same]
      · simp [same]

@[simp] theorem view_json (source : Source) (json : Json) : (view source json).json = json := by
  cases json <;> rfl

theorem isNull_eq_false (some : value ≠ .null) : value.isNull = false := by
  cases value with
  | null => exact absurd rfl some
  | _ => rfl

/-- An object with the views of the members. -/
abbrev viewed (source : Source) (members : List (String × Json)) (path : Path)
    (position : Position) : Object :=
  ⟨viewMembers source members, path, position⟩

variable {path : Path} {position : Position}

theorem find?_of_holds (holds : Holds members name value) (there : value ≠ .null) :
    (viewed source members path position).find? name = some (view source value) := by
  rw [Object.find?, lookupLast_viewMembers, lookupLast_of_holds holds]
  simp [isNull_eq_false there]

theorem find?_of_lacks (lacks : Lacks members name) :
    (viewed source members path position).find? name = none := by
  rw [Object.find?, lookupLast_viewMembers]
  obtain absent | null := lacks
  · rw [lookupLast_eq_none absent]
    rfl
  · rw [lookupLast_of_holds null]
    rfl

theorem findSome?_of_gives {names : List String} (gives : Gives members value names) :
    ∃ found, (names.findSome? fun n =>
      ((viewed source members path position).find? n).map (n, ·)) =
        some (found, view source value) := by
  induction names with
  | nil => exact gives.elim
  | cons name others ih =>
    obtain ⟨holds, there⟩ | ⟨lacks, gives⟩ := gives
    · exact ⟨name, by rw [List.findSome?_cons, find?_of_holds holds there]; rfl⟩
    · obtain ⟨found, later⟩ := ih gives
      exact ⟨found, by rw [List.findSome?_cons, find?_of_lacks lacks]; exact later⟩

/-- A part is found under the first of its names that has one. -/
theorem view?_of_gives {key : String} {aliases : List String}
    (gives : Gives members value (key :: aliases)) :
    ((viewed source members path position).slot key aliases).view? = some (view source value) := by
  obtain ⟨found, first⟩ := findSome?_of_gives gives
  rw [Object.slot, first]

theorem slot_of_omits {key : String} {aliases : List String}
    (omits : Omits members (key :: aliases)) :
    (viewed source members path position).slot key aliases = ⟨path.member key, none⟩ := by
  have nothing : ((key :: aliases).findSome? fun n =>
      ((viewed source members path position).find? n).map (n, ·)) = none := by
    rw [List.findSome?_eq_none_iff]
    intro name mem
    rw [find?_of_lacks (omits name mem)]
    rfl
  rw [Object.slot, nothing]

theorem view?_of_omits {key : String} {aliases : List String}
    (omits : Omits members (key :: aliases)) :
    ((viewed source members path position).slot key aliases).view? = none := by
  rw [slot_of_omits omits]

end Members

/-! ### Positions -/

section Positions

variable {members rest : List (String × Json)} {key word : String} {value : Json}

theorem foldsTo_unique {other : String} (h : Folding.foldsTo key word)
    (h' : Folding.foldsTo key other) : word = other := by
  simp only [Folding.foldsTo, decide_eq_true_eq] at h h'
  exact String.toList_injective (h.symm.trans h')

theorem not_foldsTo {other : String} (h : Folding.foldsTo key word) (ne : word ≠ other) :
    Folding.foldsTo key other = false :=
  Bool.eq_false_iff.mpr fun h' => ne (foldsTo_unique h h')

/-- Reading the members takes a coordinate from the old value to the new one. -/
def Sets (members : List (String × Json)) (word : String) (old new : Int) : Prop :=
  (named members word = [] ∧ new = old) ∨
    (∃ key, named members word = [(key, .null)] ∧ new = old) ∨
    ∃ key literal, named members word = [(key, .number literal)] ∧ Numeral.int64? literal = some new

theorem sets_of_coordinate {new : Int} (coordinate : Coordinate members word new)
    (fits : Numeral.fitsInt64 new) : Sets members word 0 new := by
  cases coordinate with
  | absent empty => exact .inl ⟨empty, rfl⟩
  | null sole => exact .inr (.inl ⟨_, sole, rfl⟩)
  | number sole denotes =>
    exact .inr (.inr ⟨_, _, sole, Numeral.int64?_of_denotes denotes fits⟩)

theorem named_cons_of_ne (ne : Folding.foldsTo key word = false) :
    named ((key, value) :: rest) word = named rest word :=
  List.filter_cons_of_neg (by simpa using ne)

theorem named_cons_of_eq (eq : Folding.foldsTo key word) :
    named ((key, value) :: rest) word = (key, value) :: named rest word :=
  List.filter_cons_of_pos eq

theorem Sets.nil {old new : Int} (sets : Sets [] word old new) : new = old := by
  obtain ⟨-, same⟩ | ⟨_, sole, -⟩ | ⟨_, _, sole, -⟩ := sets
  · exact same
  · cases sole
  · cases sole

theorem Sets.skip {old new : Int} (ne : Folding.foldsTo key word = false)
    (sets : Sets ((key, value) :: rest) word old new) : Sets rest word old new := by
  rw [Sets, named_cons_of_ne ne] at sets
  exact sets

/-- A member with the name of a coordinate is the only one, so the rest leaves
the coordinate alone. -/
theorem Sets.take {old new : Int} (eq : Folding.foldsTo key word)
    (sets : Sets ((key, value) :: rest) word old new) :
    (value = .null ∧ Sets rest word old new) ∨
      (value.isNull = false ∧ Coordinates.integer? value = some new ∧ Sets rest word new new) := by
  rw [Sets, named_cons_of_eq eq] at sets
  obtain ⟨empty, -⟩ | ⟨_, sole, same⟩ | ⟨_, literal, sole, read⟩ := sets
  · cases empty
  · obtain ⟨first, empty⟩ := List.cons.inj sole
    exact .inl ⟨(Prod.mk.inj first).2, .inl ⟨empty, same⟩⟩
  · obtain ⟨first, empty⟩ := List.cons.inj sole
    obtain rfl := (Prod.mk.inj first).2
    exact .inr ⟨rfl, read, .inl ⟨empty, rfl⟩⟩

/-- The coordinates behind the members of `start`. -/
theorem ofMembers_eq (start : String) {old new : Coordinates}
    (offset : Sets members "offset" old.offset new.offset)
    (line : Sets members "line" old.line new.line)
    (column : Sets members "column" old.column new.column) :
    Coordinates.ofMembers start old members = .ok new := by
  induction members generalizing old with
  | nil =>
    have same : new = old := by
      cases new
      cases old
      rw [Coordinates.mk.injEq]
      exact ⟨offset.nil, line.nil, column.nil⟩
    rw [same]
    rfl
  | cons member rest ih =>
    obtain ⟨key, value⟩ := member
    rw [Coordinates.ofMembers]
    -- the member names one coordinate at most, and then no later member names it
    by_cases isOffset : Folding.foldsTo key "offset"
    · have line := line.skip (not_foldsTo isOffset (by decide))
      have column := column.skip (not_foldsTo isOffset (by decide))
      obtain ⟨null, rest⟩ | ⟨there, read, rest⟩ := offset.take isOffset
      · rw [null]
        exact ih rest line column
      · simp only [there, Coordinates.isName, Coordinates.set?, isOffset, read]
        exact ih rest line column
    by_cases isLine : Folding.foldsTo key "line"
    · have offset := offset.skip (not_foldsTo isLine (by decide))
      have column := column.skip (not_foldsTo isLine (by decide))
      obtain ⟨null, rest⟩ | ⟨there, read, rest⟩ := line.take isLine
      · rw [null]
        exact ih offset rest column
      · simp only [there, Coordinates.isName, Coordinates.set?, isOffset, isLine, read]
        exact ih offset rest column
    by_cases isColumn : Folding.foldsTo key "column"
    · have offset := offset.skip (not_foldsTo isColumn (by decide))
      have line := line.skip (not_foldsTo isColumn (by decide))
      obtain ⟨null, rest⟩ | ⟨there, read, rest⟩ := column.take isColumn
      · rw [null]
        exact ih offset line rest
      · simp only [there, Coordinates.isName, Coordinates.set?, isOffset, isLine, isColumn, read]
        exact ih offset line rest
    · -- a member of another name is skipped, whatever it holds
      have other : Coordinates.isName key = false := by
        simp [Coordinates.isName, Coordinates.set?, isOffset, isLine, isColumn]
      rw [other, if_pos (by simp)]
      exact ih (offset.skip (by simpa using isOffset)) (line.skip (by simpa using isLine))
        (column.skip (by simpa using isColumn))

theorem ofLocation_cons {coordinates : Coordinates} (ne : Folding.foldsTo key "start" = false) :
    Coordinates.ofLocation coordinates ((key, value) :: rest) =
      Coordinates.ofLocation coordinates rest := by
  have skipped : (value.isNull || !Folding.foldsTo key "start") = true := by simp [ne]
  rw [Coordinates.ofLocation.eq_def]
  exact if_pos skipped

theorem ofLocation_eq_ok {coordinates : Coordinates} (empty : named members "start" = []) :
    Coordinates.ofLocation coordinates members = .ok coordinates := by
  induction members with
  | nil => rfl
  | cons member rest ih =>
    obtain ⟨key, value⟩ := member
    by_cases isStart : Folding.foldsTo key "start"
    · rw [named_cons_of_eq isStart] at empty
      cases empty
    · rw [named_cons_of_ne (by simpa using isStart)] at empty
      rw [ofLocation_cons (by simpa using isStart)]
      exact ih empty

/-- A location with one member `start` gives the coordinates in it. -/
theorem ofLocation_eq {start : List (String × Json)} {span : Span} {old new : Coordinates}
    (sole : named members "start" = [(key, .object span start)])
    (read : Coordinates.ofMembers key old start = .ok new) :
    Coordinates.ofLocation old members = .ok new := by
  induction members with
  | nil => cases sole
  | cons member rest ih =>
    obtain ⟨name, value⟩ := member
    by_cases isStart : Folding.foldsTo name "start"
    · rw [named_cons_of_eq isStart] at sole
      obtain ⟨first, empty⟩ := List.cons.inj sole
      obtain ⟨rfl, rfl⟩ := Prod.mk.inj first
      rw [Coordinates.ofLocation, if_neg (by simp [isStart, Json.isNull]), read]
      exact ofLocation_eq_ok empty
    · rw [named_cons_of_ne (by simpa using isStart)] at sole
      rw [ofLocation_cons (by simpa using isStart)]
      exact ih sole

/-- The position that the members of a node give is read back. -/
theorem readPosition_of_located {file : String} {text : Bytes} {position : Position}
    (located : Located members file position) (isIn : position.IsIn file) (path : Path) :
    readPosition ⟨file, text⟩ (viewMembers ⟨file, text⟩ members) path = pure position := by
  rw [readPosition, lookupLast_viewMembers]
  cases located with
  | unknown omitted =>
    obtain absent | null := omitted
    · rw [lookupLast_eq_none absent]
      rfl
    · rw [lookupLast_of_holds null]
      rfl
  | @known outer inner location start key offset line column given sole atOffset atLine atColumn =>
    -- the zero position may be written out, too
    have fits : Numeral.fitsInt64 offset ∧ Numeral.fitsInt64 line ∧ Numeral.fitsInt64 column := by
      obtain zero | ⟨-, fits⟩ := isIn
      · cases zero
        decide
      · exact fits
    have read : Coordinates.ofJson (.object outer location) = .ok ⟨offset, line, column⟩ :=
      ofLocation_eq sole (ofMembers_eq key (sets_of_coordinate atOffset fits.1)
        (sets_of_coordinate atLine fits.2.1) (sets_of_coordinate atColumn fits.2.2))
    rw [lookupLast_of_holds given]
    simp only [Option.map_some, Option.filter_some, view_json, Json.isNull, Bool.not_false, if_true,
      read]

end Positions

/-! ### Nodes -/

theorem ofTag?_of_mem {kind : Kind} (mem : kind ∈ Kind.all) :
    Kind.ofTag? kind.tag = some kind := by
  have each : ∀ kind ∈ Kind.all, Kind.ofTag? kind.tag = some kind := by decide
  exact each kind mem

theorem kind_mem_all (node : Node) : node.kind ∈ Kind.all := by
  cases node with
  | type value => cases value <;> simp [Node.kind, TypeRef.kind, Kind.all]
  | decl value =>
    cases value with
    | header value =>
      obtain ⟨_, kind, _, _⟩ := value
      cases kind <;> simp [Node.kind, Decl.kind, Header.nodeKind, Kind.all]
    | routine value =>
      obtain ⟨_, kind, _, _, _, _⟩ := value
      cases kind <;> simp [Node.kind, Decl.kind, Routine.nodeKind, Kind.all]
    | _ => simp [Node.kind, Decl.kind, Kind.all]
  | stmt value => cases value <;> simp [Node.kind, Stmt.kind, Kind.all]
  | expr value => cases value <;> simp [Node.kind, Expr.kind, Kind.all]
  | _ => simp [Node.kind, Kind.all]

theorem tag?_of_holds {source : Source} {members : List (String × Json)} {span : Span}
    {tag : String} (holds : Holds members "type" (.string span tag)) :
    tag? (viewMembers source members) = some tag := by
  rw [tag?, lookupLast_viewMembers, lookupLast_of_holds holds]
  rfl

theorem integer?_of_spells {json : Json} {value : Int} (spells : SpellsInteger json value)
    (fits : Numeral.fitsInt64 value) : Object.integer? json = some value := by
  cases spells with
  | number denotes => exact Numeral.int64?_of_denotes denotes fits
  | string denotes => exact Numeral.int64?_of_denotes denotes fits

theorem mem_comments {value : ProgramComments} {entry : String × Option Comment} {child : Node}
    (mem : entry ∈ value.named)
    (isChild : child ∈ (Component.optional entry.1 .comment entry.2).nodes) :
    child ∈ (Component.comments value).nodes := by
  obtain ⟨key, comment⟩ := entry
  cases comment with
  | none => cases isChild
  | some comment =>
    obtain rfl := List.mem_singleton.mp isChild
    have listed : some comment ∈ value.named.map Prod.snd := List.mem_map.mpr ⟨_, mem, rfl⟩
    exact List.mem_map.mpr ⟨comment, List.mem_filterMap.mpr ⟨_, listed, rfl⟩, rfl⟩

section Nodes

variable {file : String} {text : Bytes}

mutual

/-- A node of a well-formed tree is read from every value that spells it. -/
theorem reads_of_spells {json : Json} {node : Node} :
    Spells file json node → node.WellFormed file → (view ⟨file, text⟩ json).Reads node
  | @Spells.mk _ _ _ members _ tagged located parts, ⟨isIn, unscoped, complete, inner⟩ => by
    -- all parts are recovered from the members, so the reader of the kind finds them
    refine ⟨⟨_, _, rfl⟩, fun path => ?_⟩
    have all : RecoversAll (viewed ⟨file, text⟩ members path node.position) node.parts :=
      fun part mem => ⟨recovers_of_spells (parts part mem) (complete part mem) (inner part mem) _ _,
        complete part mem⟩
    have read : readObject ⟨file, text⟩ (viewMembers ⟨file, text⟩ members) path =
        pure (some node) := by
      rw [readObject, readPosition_of_located located isIn, tag?_of_holds tagged]
      simp only [Reading.pure_bind, ofTag?_of_mem (kind_mem_all node)]
      exact readKind_eq rfl unscoped all
    exact read

/-- A part is recovered from the members that spell it. -/
theorem recovers_of_spells {members : List (String × Json)} {part : Component} :
    SpellsPart file members part → part.Complete →
      (∀ child ∈ part.nodes, child.WellFormed file) →
      ∀ path position, Recovers (viewed ⟨file, text⟩ members path position) part
  | .noChild omitted, _, _, _, _ => view?_of_omits omitted
  | .child given spells, _, inner, _, _ =>
    ⟨_, view?_of_gives given, reads_of_spells spells (inner _ (by simp [Component.nodes]))⟩
  | .noList omitted optional, _, _, _, _ => .inl ⟨rfl, optional, view?_of_omits omitted⟩
  | .list given spells, _, inner, _, _ =>
    .inr ⟨_, _, _, view?_of_gives given, view_json _ _, readsList_of_spells spells inner⟩
  | .noText omitted, _, _, _, _ => .inl ⟨rfl, rfl, view?_of_omits omitted⟩
  | .text given, _, _, _, _ => .inr ⟨_, _, view?_of_gives given, view_json _ _⟩
  | .integer given spells, fits, _, _, _ =>
    ⟨_, view?_of_gives given, by rw [view_json]; exact integer?_of_spells spells fits⟩
  | .noComments omitted, _, _, _, _ => .inl ⟨rfl, view?_of_omits omitted⟩
  | .comments given parts, _, inner, _, _ =>
    .inr ⟨_, _, _, view?_of_gives given, view_json _ _, fun path position entry mem =>
      recovers_of_spells (parts entry mem) (fun needed => nomatch needed)
        (fun child isChild => inner child (mem_comments mem isChild)) path position⟩

/-- The nodes of a list are read from the items that spell them. -/
theorem readsList_of_spells {listing : Listing} {items : List Json} {nodes : List (Option Node)} :
    SpellsItems file listing items nodes →
      (∀ child ∈ nodes.reduceOption, child.WellFormed file) →
      ReadsList listing (viewItems ⟨file, text⟩ items) nodes
  | .nil, _ => .nil
  | .null sparse rest, inner => .null sparse (fun _ => rfl) (readsList_of_spells rest inner)
  | .cons first rest, inner =>
    .cons (reads_of_spells first (inner _ List.mem_cons_self))
      (readsList_of_spells rest fun child mem => inner child (List.mem_cons_of_mem _ mem))

end

end Nodes

/-! ### Documents that are not void -/

section Files

open Json.Grammar

theorem leading_blanks {before : Bytes} (blank : Blanks before) (rest : Bytes) :
    Blank.leading 0 (before ++ ascii '\x7b' :: rest) = before.length := by
  induction before with
  | nil =>
    have brace : Utf8.head? (ascii '\x7b' :: rest) = some '\x7b' :=
      Utf8.head?_encodeChar_append '\x7b' rest
    rw [List.nil_append, Blank.leading, brace]
    rfl
  | cons b before ih =>
    obtain ⟨here, others⟩ := List.forall_mem_cons.mp blank
    -- the four characters between tokens are encoded in one byte and are white space
    have first : ∃ c : Char, Blank.isBlank c ∧ c.utf8Size = 1 ∧
        ∀ bytes, Utf8.head? (b :: bytes) = some c := by
      obtain rfl | rfl | rfl | rfl := here
      · exact ⟨' ', by decide, rfl, Utf8.head?_encodeChar_append ' '⟩
      · exact ⟨'\t', by decide, rfl, Utf8.head?_encodeChar_append '\t'⟩
      · exact ⟨'\n', by decide, rfl, Utf8.head?_encodeChar_append '\n'⟩
      · exact ⟨'\r', by decide, rfl, Utf8.head?_encodeChar_append '\r'⟩
    obtain ⟨c, isBlank, single, head⟩ := first
    rw [List.cons_append, Blank.leading, head]
    simp only [isBlank, if_true, single, Nat.sub_self, ih others, List.length_cons]

/-- Bytes once found to be needed are kept. -/
theorem needed_le_kept {seen needed skip : Nat} {bytes : Bytes} (le : needed ≤ seen + skip) :
    needed ≤ Blank.kept seen needed skip bytes := by
  fun_induction Blank.kept seen needed skip bytes with
  | case1 => exact Nat.le_refl _
  | case2 _ _ _ _ _ ih => exact ih (by omega)
  | case3 _ _ _ _ _ _ _ ih => exact ih (by omega)
  | case4 seen needed byte rest c _ _ ih =>
    -- a character that is not blank makes all bytes up to its end needed
    have size := c.utf8Size_pos
    have later := ih (by omega)
    omega
  | case5 seen needed byte rest _ ih =>
    have later := ih (by omega)
    omega

/-- A text that starts with a brace, blanks apart, is neither empty nor null. -/
theorem isVoid_eq_false {before : Bytes} (blank : Blanks before) (rest : Bytes) :
    isVoid (before ++ ascii '\x7b' :: rest) = false := by
  have body : (before ++ ascii '\x7b' :: rest).drop before.length = ascii '\x7b' :: rest :=
    List.drop_left
  have brace : Utf8.head? (ascii '\x7b' :: rest) = some '\x7b' :=
    Utf8.head?_encodeChar_append '\x7b' rest
  -- trimming keeps the brace, which no void text begins with
  have some : 1 ≤ Blank.kept 0 0 0 (ascii '\x7b' :: rest) := by
    rw [Blank.kept, brace]
    exact needed_le_kept (Nat.le_refl 1)
  obtain ⟨n, more⟩ := Nat.exists_eq_add_of_le' some
  rw [isVoid, Blank.trim, leading_blanks blank, body, more, List.take_succ_cons]
  rfl

end Files

/-! ### A document with its tree -/

section Sample

open Json.Grammar

/-- Can the character stand for itself between quotes, in one byte? -/
def isPlain (c : Char) : Bool :=
  0x20 ≤ c.toNat && c.toNat < 0x80 && c != '"' && c != '\\'

theorem characters_plain {cs : List Char} (plain : ∀ c ∈ cs, isPlain c) :
    Characters (cs.map ascii) cs := by
  induction cs with
  | nil => exact .nil
  | cons c cs ih =>
    obtain ⟨here, others⟩ := List.forall_mem_cons.mp plain
    simp only [isPlain, Bool.and_eq_true, decide_eq_true_eq, bne_iff_ne] at here
    obtain ⟨⟨⟨printable, small⟩, noQuote⟩, noBackslash⟩ := here
    have encoded : String.utf8EncodeChar c = [ascii c] := by
      rw [String.utf8EncodeChar]
      exact if_pos (Nat.le_of_lt_succ small)
    have step := Characters.plain printable noQuote noBackslash (ih others)
    rw [encoded] at step
    exact step

/-- The bytes of a plain text in quotes. -/
def inQuotes (text : String) : Bytes :=
  ascii '"' :: (text.toList.map ascii ++ [ascii '"'])

theorem quoted_plain {text : String} (plain : text.toList.all isPlain) :
    Quoted (inQuotes text) text := by
  have quoted := Quoted.mk (characters_plain (List.all_eq_true.mp plain))
  rwa [String.ofList_toList] at quoted

theorem value_plain {start : Nat} (text : String) (plain : text.toList.all isPlain) :
    Value start (inQuotes text) (.string ⟨start, start + (inQuotes text).length⟩ text) :=
  .string (quoted_plain plain)

theorem value_digit {start : Nat} (d : Char) (digit : d.isDigit) (nonzero : d ≠ '0') :
    Value start ([d].map ascii) (.number (String.ofList [d])) := by
  have whole : Whole [d] := .digits digit nonzero fun _ mem => nomatch mem
  exact .number (.positive whole .absent .absent)

section Compact

variable {start : Nat} {bytes : Bytes} {json : Json}

theorem padded_compact (value : Value start bytes json) : Padded start (bytes ++ []) json := by
  have noBlanks : Blanks [] := fun _ mem => nomatch mem
  exact .mk noBlanks value noBlanks

/-- A member without blanks. -/
theorem member_compact (name : String) (plain : name.toList.all isPlain)
    (value : Value (start + (inQuotes name).length + 1) bytes json) :
    Member start (inQuotes name ++ ascii ':' :: (bytes ++ [])) (name, json) := by
  have noBlanks : Blanks [] := fun _ mem => nomatch mem
  exact .mk noBlanks (quoted_plain plain) noBlanks (padded_compact value)

theorem text_of_eq {document : Bytes} (written : Text bytes json) (same : bytes = document) :
    Text document json :=
  same ▸ written

end Compact

section Members

variable {members : List (String × Json)} {name : String} {value : Json}

theorem holds_head (absent : ∀ later ∈ members, later.1 ≠ name) :
    Holds ((name, value) :: members) name value :=
  ⟨[], members, rfl, absent⟩

theorem Holds.cons (holds : Holds members name value) (member : String × Json) :
    Holds (member :: members) name value := by
  obtain ⟨before, after, rfl, absent⟩ := holds
  exact ⟨member :: before, after, rfl, absent⟩

theorem omits_of_absent {names : List String} (absent : ∀ member ∈ members, member.1 ∉ names) :
    Omits members names :=
  fun _ mem => .inl fun member listed same => absent member listed (same ▸ mem)

/-- A node whose members begin with its tag and give no position. -/
theorem spells_unlocated {file tag : String} {span tagSpan : Span} {node : Node}
    (absent : ∀ later ∈ members, later.1 ≠ "type" ∧ later.1 ≠ "location")
    (tagged : tag = node.kind.tag) (unknown : node.position = .unknown)
    (parts : ∀ part ∈ node.parts, SpellsPart file (("type", .string tagSpan tag) :: members) part) :
    Spells file (.object span (("type", .string tagSpan tag) :: members)) node := by
  subst tagged
  refine .mk (holds_head fun later mem => (absent later mem).1) ?_ parts
  rw [unknown]
  refine .unknown (.inl (List.forall_mem_cons.mpr ⟨by simp, fun later mem => ?_⟩))
  exact (absent later mem).2

end Members

/-- The assignment `x := -7` at the start of the second line. -/
def sampleAssignment : Stmt :=
  .assign ⟨"p.pas", 0, 2, 1⟩ (some ⟨.unknown, "x"⟩) ":=" (some (.integer .unknown (-7)))

/-- A program with nothing but that assignment. -/
def sample : File :=
  .program { block := some ⟨.unknown, [], some ⟨.unknown, [some sampleAssignment]⟩⟩ }

theorem sample_wellFormed : sample.node.WellFormed "p.pas" := by
  have target : (Node.ident ⟨.unknown, "x"⟩).WellFormed "p.pas" :=
    .mk (.inl rfl) rfl (by simp [Node.parts, Component.Complete])
      (by simp [Node.parts, Component.nodes])
  have value : (Node.expr (.integer .unknown (-7))).WellFormed "p.pas" := by
    have fits : Numeral.fitsInt64 (-7) := by decide
    exact .mk (.inl rfl) rfl (by simpa [Node.parts, Expr.parts, Component.Complete] using fits)
      (by simp [Node.parts, Expr.parts, Component.nodes])
  have assignment : (Node.stmt sampleAssignment).WellFormed "p.pas" :=
    .mk (.inr (by decide)) rfl
      (by simp [sampleAssignment, Node.parts, Stmt.parts, Component.mandatory, Component.Complete])
      (by simpa [sampleAssignment, Node.parts, Stmt.parts, Component.mandatory, Component.nodes]
        using ⟨target, value⟩)
  have body : (Node.stmt (.compound ⟨.unknown, [some sampleAssignment]⟩)).WellFormed "p.pas" :=
    .mk (.inl rfl) rfl (by simp [Node.parts, Stmt.parts, Component.listOf, Component.Complete])
      (by simpa [Node.parts, Stmt.parts, Component.listOf, Component.nodes, List.reduceOption]
        using assignment)
  have block : (Node.block ⟨.unknown, [], some ⟨.unknown, [some sampleAssignment]⟩⟩).WellFormed
      "p.pas" :=
    .mk (.inl rfl) rfl
      (by simp [Node.parts, Component.listOf, Component.mandatory, Component.Complete])
      (by simpa [Node.parts, Component.listOf, Component.mandatory, Component.nodes,
        List.reduceOption] using body)
  exact .mk (.inl rfl) rfl
    (by simp [sample, File.node, Node.parts, Component.optional, Component.mandatory,
      Component.Complete])
    (by simpa [sample, File.node, Node.parts, Component.optional, Component.mandatory,
      Component.nodes, ProgramComments.named, List.reduceOption] using block)

end Sample

/-! ### Round trip -/

section RoundTrip

open Json.Grammar

/-- A text of an object is neither empty nor null. -/
theorem isVoid_of_object {text : Bytes} {span : Span} {members : List (String × Json)}
    (written : Text text (.object span members)) : isVoid text = false := by
  obtain ⟨blankBefore, value, -⟩ := written
  cases value with
  | object inner => exact isVoid_eq_false blankBefore _

theorem decode_eq_ok {name : String} {text : Bytes} {json : Json} {file : File}
    (filled : isVoid text = false) (parsed : Json.parse? text = some json)
    (reads : (view ⟨name, text⟩ json).Reads file.node) : decode name text = .ok file := by
  rw [decode, filled, parsed]
  simp only [reads.2 .root]
  cases file <;> rfl

/-- A document that spells a well-formed tree is read as exactly that tree. -/
theorem decode_eq_ok_of_spells {name : String} {text : Bytes} {json : Json} {file : File}
    (wellFormed : file.node.WellFormed name) (written : Text text json)
    (shallow : json.depth ≤ 10000) (spells : Spells name json file.node) :
    decode name text = .ok file := by
  have parsed := Json.parse?_of_text written shallow
  have reads : (view ⟨name, text⟩ json).Reads file.node := reads_of_spells spells wellFormed
  -- nodes are spelled by objects
  cases spells with
  | mk => exact decode_eq_ok (isVoid_of_object written) parsed reads

/-- The target of the assignment stands under its other name, its list has an
empty statement, its value is a string, and one coordinate is left out. -/
theorem decode_sample :
    decode "p.pas" (.ofString (
      "\x7b\"type\":\"program\",\"body\":\x7b\"type\":\"block\",\"statements\":" ++
      "\x7b\"type\":\"compound_statement\",\"list\":[null,\x7b\"type\":\"assignment\"," ++
      "\"identifier\":\x7b\"type\":\"identifier\",\"value\":\"x\"\x7d,\"operator\":\":=\"," ++
      "\"expression\":\x7b\"type\":\"integer_constant\",\"value\":\"-7\"\x7d," ++
      "\"location\":\x7b\"start\":\x7b\"line\":2,\"column\":1\x7d\x7d\x7d]\x7d\x7d\x7d")) =
      .ok sample := by
  have identifier {n : Nat} : Value n _ _ :=
    .object (.cons (member_compact "type" (by decide) (value_plain "identifier" (by decide)))
      (.last (member_compact "value" (by decide) (value_plain "x" (by decide)))))
  have expression {n : Nat} : Value n _ _ :=
    .object (.cons (member_compact "type" (by decide) (value_plain "integer_constant" (by decide)))
      (.last (member_compact "value" (by decide) (value_plain "-7" (by decide)))))
  have place {n : Nat} : Value n _ _ :=
    .object (.cons (member_compact "line" (by decide) (value_digit '2' rfl (by decide)))
      (.last (member_compact "column" (by decide) (value_digit '1' rfl (by decide)))))
  have assignment {n : Nat} : Value n _ _ :=
    .object (.cons (member_compact "type" (by decide) (value_plain "assignment" (by decide)))
      (.cons (member_compact "identifier" (by decide) identifier)
      (.cons (member_compact "operator" (by decide) (value_plain ":=" (by decide)))
      (.cons (member_compact "expression" (by decide) expression)
      (.last (member_compact "location" (by decide)
        (.object (.last (member_compact "start" (by decide) place)))))))))
  have list {n : Nat} : Value n _ _ :=
    .array (.cons (padded_compact .null) (.last (padded_compact assignment)))
  have statements {n : Nat} : Value n _ _ :=
    .object (.cons
      (member_compact "type" (by decide) (value_plain "compound_statement" (by decide)))
      (.last (member_compact "list" (by decide) list)))
  have block {n : Nat} : Value n _ _ :=
    .object (.cons (member_compact "type" (by decide) (value_plain "block" (by decide)))
      (.last (member_compact "statements" (by decide) statements)))
  have written : Text _ _ :=
    padded_compact (.object
      (.cons (member_compact "type" (by decide) (value_plain "program" (by decide)))
      (.last (member_compact "body" (by decide) block))))
  refine Eq.trans (congrArg (decode "p.pas") ?_)
    (decode_eq_ok_of_spells sample_wellFormed written (by decide) ?_)
  · -- the bytes that the grammar assembles are those of the text
    decide +kernel
  -- the program, its block and the statements between `begin` and `end`
  refine spells_unlocated (by simp) rfl rfl ?_
  simp only [sample, File.node, Node.parts, List.forall_mem_cons, List.not_mem_nil,
    false_implies, implies_true, and_true]
  refine ⟨.noChild (omits_of_absent (by simp)), .noChild (omits_of_absent (by simp)),
    .child (.inl ⟨(holds_head (by simp)).cons _, by simp⟩) ?_,
    .noComments (omits_of_absent (by simp))⟩
  refine spells_unlocated (by simp) rfl rfl ?_
  simp only [Node.parts, List.forall_mem_cons, List.not_mem_nil,
    false_implies, implies_true, and_true]
  refine ⟨.noList (omits_of_absent (by simp)) (by decide),
    .child (.inl ⟨(holds_head (by simp)).cons _, by simp⟩) ?_⟩
  refine spells_unlocated (by simp) rfl rfl ?_
  simp only [Node.parts, Stmt.parts, List.forall_mem_cons, List.not_mem_nil,
    false_implies, implies_true, and_true]
  refine .list (.inl ⟨(holds_head (by simp)).cons _, by simp⟩) (.null (.inl rfl) (.cons ?_ .nil))
  -- the assignment, which has a position
  have line : Numeral.Denotes (String.ofList ['2']) 2 := .unsigned (.single rfl)
  have column : Numeral.Denotes (String.ofList ['1']) 1 := .unsigned (.single rfl)
  have start (json : Json) : named [("start", json)] "start" = [("start", json)] :=
    named_cons_of_eq (by decide)
  have names (first second : Json) : named [("line", first), ("column", second)] "offset" = [] ∧
      named [("line", first), ("column", second)] "line" = [("line", first)] ∧
      named [("line", first), ("column", second)] "column" = [("column", second)] := by
    simp [named, Folding.foldsTo, Folding.fold]
  refine .mk (holds_head (by simp))
    (.known (((((holds_head (by simp)).cons _).cons _).cons _).cons _) (start _)
      (.absent (names _ _).1) (.number (names _ _).2.1 line) (.number (names _ _).2.2 column)) ?_
  simp only [sampleAssignment, Node.parts, Stmt.parts, List.forall_mem_cons, List.not_mem_nil,
    false_implies, implies_true, and_true]
  refine ⟨.child (.inr ⟨.inl (by simp), .inl ⟨(holds_head (by simp)).cons _, by simp⟩⟩) ?_,
    .text (.inl ⟨((holds_head (by simp)).cons _).cons _, by simp⟩),
    .child (.inl ⟨(((holds_head (by simp)).cons _).cons _).cons _, by simp⟩) ?_⟩
  · refine spells_unlocated (by simp) rfl rfl ?_
    simp only [Node.parts, List.forall_mem_cons, List.not_mem_nil,
    false_implies, implies_true, and_true]
    exact .text (.inl ⟨(holds_head (by simp)).cons _, by simp⟩)
  · refine spells_unlocated (by simp) rfl rfl ?_
    simp only [Node.parts, Expr.parts, List.forall_mem_cons, List.not_mem_nil,
    false_implies, implies_true, and_true]
    exact .integer (.inl ⟨(holds_head (by simp)).cons _, by simp⟩) (.string (.minus (.single rfl)))

end RoundTrip

end Document

end PascalCompiler
