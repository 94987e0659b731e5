import PascalCompiler.Proofs.Document.Reached

/-!
# What is said to be missing

A message that something is missing gives a path. Most readers look whether there is a value at
that path. Some look at what they made of the value instead: those of the body of a program, of the
statements of a block, and of the items of lists in which no item may be left out. They miss a
value that is there, but spells no node. These are the only places where something is said to be
missing although it is there.

## Main definitions

* `Document.Field.awaits`: the kinds of node without which the value of a field is missed
* `Document.Misjudged`: a value is there, but no such node

## Main results

* `Document.missing_though_present_iff`: a value that is there is said to be missing exactly if it
  is misjudged
-/

namespace PascalCompiler.Document

/-- The kinds of node without which the value of a field is missed, if the value is judged by what
is read from it. -/
def Field.awaits : Field → Option (List Kind)
  | .child _ _ (.unread _) _ | .list _ _ (some _) _ => some Kind.all
  | .child _ _ (.untaken _) role => some role.kinds
  | _ => none

/-- There is a value at the place, but no node for which the field of an object waits. -/
inductive Misjudged (root : Json) : Path → Prop where
  | mk {path place : Path} {span : Span} {members : List (String × Json)} {kind : Kind}
      {field : Field} {kinds : List Kind} {value : Json}
      (reached : Reached root path (.object span members)) (tags : Tags members kind.tag)
      (known : kind ∈ Kind.all) (isField : field ∈ kind.fields (listsHandlers members))
      (awaits : field.awaits = some kinds) (reads : field.Reads members path place value)
      (there : value ≠ .null) (other : ¬ IsOf kinds value) : Misjudged root place

namespace Misjudged

variable {root value : Json} {path : Path} {span tagSpan : Span} {members : List (String × Json)}
  {key : String} {role : Role} {kinds : List Kind}

theorem of_child (outer : Reached root path (.object span members)) (kind : Kind)
    (tag : Holds members "type" (.string tagSpan kind.tag)) (known : kind ∈ Kind.all)
    {aliases : List String} {need : Need}
    (isField : .child key aliases need role ∈ kind.fields (listsHandlers members))
    (awaits : (Field.child key aliases need role).awaits = some kinds)
    (holds : Holds members key value) (there : value ≠ .null) (other : ¬ IsOf kinds value) :
    Misjudged root (path.member key) :=
  .mk outer (.string tag) known isField awaits (.child (.first holds there)) there other

theorem of_item (outer : Reached root path (.object span members)) (kind : Kind)
    (tag : Holds members "type" (.string tagSpan kind.tag)) (known : kind ∈ Kind.all)
    {listing : Listing} {word : Option String}
    (isField : .list key listing word role ∈ kind.fields (listsHandlers members))
    (awaits : (Field.list key listing word role).awaits = some kinds)
    {listSpan : Span} {items : List Json} (holds : Holds members key (.array listSpan items))
    (position : Nat) (isItem : items[position]? = some value) (there : value ≠ .null)
    (other : ¬ IsOf kinds value) : Misjudged root ((path.member key).index position) :=
  .mk outer (.string tag) known isField awaits (.item holds isItem) there other

end Misjudged

/-! ### What the notes on a field say -/

section Notes

variable {source : Source} {members : List (String × Json)} {path : Path} {position : Position}
  {defect : Defect} {what : String}

theorem not_mem_miscast {role : Role} {node : Option Node} (cause : defect.cause = .missing what) :
    defect ∉ miscast role path node := by
  intro mem
  obtain ⟨other, -, rfl⟩ := List.mem_map.mp mem
  cases cause

theorem mem_missing_iff {object : Object} {word : Option String} :
    defect ∈ object.missing path word ↔
      ∃ what, word = some what ∧ defect = ⟨object.position, path, .missing what⟩ := by
  rw [Object.missing, List.mem_map]
  simp only [Option.mem_toList, eq_comm]

/-- A place is missed for its emptiness, or for the value there that is no node. -/
def Explains (members : List (String × Json)) (path : Path) (field : Field) (place : Path) : Prop :=
  (∃ key, place = path.member key ∧ Lacks members key) ∨
    ∃ value, field.Reads members path place value ∧
      (value = .null ∨ ∃ kinds, field.awaits = some kinds ∧ ¬ IsOf kinds value)

theorem explains_child {key : String} {aliases : List String} {need : Need} {role : Role}
    (mem : defect ∈ Field.notes source.text (viewed source members path position)
      (.child key aliases need role))
    (cause : defect.cause = .missing what) :
    Explains members path (.child key aliases need role) defect.path := by
  rw [Field.notes, Object.childNotes, List.mem_append] at mem
  obtain ⟨word, missed, rfl⟩ := mem_missing_iff.mp (mem.resolve_left (not_mem_miscast cause))
  obtain ⟨name, value, stands⟩ | omits := stands_or_omits members (key :: aliases)
  · -- there is a value, which is missed only for what is read from it
    rw [slot_of_stands stands] at missed ⊢
    refine .inr ⟨value, .child stands, .inr ?_⟩
    cases need with
    | never => cases missed
    | absent word => cases missed
    | unread word =>
      have unread : ((view source value).node (path.member name)).value.isNone :=
        (Option.ite_none_right_eq_some.mp missed).1
      exact ⟨Kind.all, rfl, value_isNone_iff.mp unread⟩
    | untaken word =>
      have untaken : (((view source value).node (path.member name)).value.filter
          role.admits).isNone := (Option.ite_none_right_eq_some.mp missed).1
      exact ⟨role.kinds, rfl, filter_isNone_iff.mp untaken⟩
  · rw [slot_of_omits omits]
    exact .inl ⟨key, rfl, omits key List.mem_cons_self⟩

theorem explains_list {key : String} {listing : Listing} {word : Option String} {role : Role}
    (mem : defect ∈ Field.notes source.text (viewed source members path position)
      (.list key listing word role))
    (cause : defect.cause = .missing what) :
    Explains members path (.list key listing word role) defect.path := by
  rw [Field.notes, List.mem_append, List.mem_append, List.mem_flatMap] at mem
  obtain (shape | inItem) | nothing := mem
  · -- what is no array has another shape
    rw [Object.items] at shape
    split at shape
    · cases shape
    · split at shape
      · cases shape
      · obtain rfl := List.mem_singleton.mp shape
        cases cause
  · -- an item is missed if no node is read from it
    have found : ∃ place value, Field.Reads members path (.list key listing word role) place value ∧
        defect ∈ (viewed source members path position).itemNotes word role place
          ((view source value).node place).value :=
      (exists_item_iff fun place view => defect ∈ Object.itemNotes _ word role place
        (view.node place).value).mp inItem
    obtain ⟨place, value, reads, noted⟩ := found
    rw [Object.itemNotes, List.mem_append] at noted
    obtain ⟨word, missed, rfl⟩ := mem_missing_iff.mp (noted.resolve_right (not_mem_miscast cause))
    obtain ⟨unread, rfl⟩ := Option.ite_none_right_eq_some.mp missed
    exact .inr ⟨value, reads, .inr ⟨Kind.all, rfl, value_isNone_iff.mp unread⟩⟩
  · -- that a list is empty is said in other words
    split at nothing
    · obtain rfl := List.mem_singleton.mp nothing
      cases cause
    · cases nothing

/-- An empty place is missed for its emptiness. -/
theorem explains_of_view?_eq_none {key : String} {aliases : List String} {field : Field}
    (absent : ((viewed source members path position).slot key aliases).view? = none) :
    Explains members path field ((viewed source members path position).slot key aliases).path := by
  obtain ⟨name, value, stands⟩ | omits := stands_or_omits members (key :: aliases)
  · rw [slot_of_stands stands] at absent
    cases absent
  · rw [slot_of_omits omits]
    exact .inl ⟨key, rfl, omits key List.mem_cons_self⟩

theorem absent_of_mem_text {object : Object} {key : String} {aliases : List String} {needed : Bool}
    (mem : defect ∈ (object.text key aliases needed).defects)
    (cause : defect.cause = .missing what) :
    (object.slot key aliases).view? = none ∧ defect.path = (object.slot key aliases).path := by
  rw [Object.text] at mem
  cases found : (object.slot key aliases).view? with
  | none =>
    cases needed with
    | true =>
      simp only [found, if_true, Reading.defects_bind, Reading.defects_pure,
        defects_objectReport, List.append_nil, List.mem_singleton] at mem
      exact ⟨rfl, mem ▸ rfl⟩
    | false => simp [found] at mem
  | some view =>
    cases shape : view.json with
    | string => simp [found, shape] at mem
    | _ =>
      simp only [found, shape, Reading.defects_bind, Reading.defects_pure, defects_objectReport,
        List.append_nil, List.mem_singleton] at mem
      rw [mem] at cause
      cases cause

theorem absent_of_mem_integer {object : Object} {document : Bytes} {key : String}
    (mem : defect ∈ (object.integer document key).defects)
    (cause : defect.cause = .missing what) :
    (object.slot key []).view? = none ∧ defect.path = (object.slot key []).path := by
  rw [Object.integer] at mem
  cases found : (object.slot key []).view? with
  | none =>
    simp only [found, Reading.defects_bind, Reading.defects_pure, defects_objectReport,
      List.append_nil, List.mem_singleton] at mem
    exact ⟨rfl, mem ▸ rfl⟩
  | some view =>
    cases read : Object.integer? view.json with
    | some value => simp [found, read] at mem
    | none =>
      simp only [found, read, Reading.defects_bind, Reading.defects_pure, defects_objectReport,
        List.append_nil, List.mem_singleton] at mem
      rw [mem] at cause
      cases cause

/-- A comment is never missed. -/
theorem not_mem_commentNotes {object : Object} (cause : defect.cause = .missing what) :
    defect ∉ object.commentNotes := by
  intro mem
  rw [Object.commentNotes] at mem
  split at mem
  · cases mem
  · split at mem
    · obtain ⟨key, -, noted⟩ := List.mem_flatMap.mp mem
      rw [Object.childNotes, List.mem_append] at noted
      obtain ⟨word, missed, -⟩ := mem_missing_iff.mp (noted.resolve_left (not_mem_miscast cause))
      cases missed
    · rw [List.mem_singleton.mp mem] at cause
      cases cause

theorem explains_of_mem {field : Field}
    (mem : defect ∈ field.notes source.text (viewed source members path position))
    (cause : defect.cause = .missing what) : Explains members path field defect.path := by
  cases field with
  | child key aliases need role => exact explains_child mem cause
  | list key listing word role => exact explains_list mem cause
  | text key aliases needed =>
    obtain ⟨absent, place⟩ := absent_of_mem_text mem cause
    exact place ▸ explains_of_view?_eq_none absent
  | integer key =>
    obtain ⟨absent, place⟩ := absent_of_mem_integer mem cause
    exact place ▸ explains_of_view?_eq_none absent
  | comments => exact absurd mem (not_mem_commentNotes cause)

/-- What a field misses by what is read, it misses at the place of the value. -/
theorem exists_missed {field : Field} {kinds : List Kind} {place : Path} {value : Json}
    (awaits : field.awaits = some kinds) (reads : field.Reads members path place value)
    (other : ¬ IsOf kinds value) :
    ∃ word, ⟨position, place, .missing word⟩ ∈
      field.notes source.text (viewed source members path position) := by
  cases reads with
  | @child key name aliases need role _ stands =>
    rw [Field.notes, slot_of_stands stands, Object.childNotes]
    cases need with
    | never => cases awaits
    | absent word => cases awaits
    | unread word =>
      obtain rfl := Option.some_inj.mp awaits
      have missed : ((view source value).node (path.member name)).value.isNone :=
        value_isNone_iff.mpr other
      exact ⟨word, List.mem_append_right _ (mem_missing_iff.mpr ⟨word, if_pos missed, rfl⟩)⟩
    | untaken word =>
      obtain rfl := Option.some_inj.mp awaits
      have missed : (((view source value).node (path.member name)).value.filter
          role.admits).isNone := filter_isNone_iff.mpr other
      exact ⟨word, List.mem_append_right _ (mem_missing_iff.mpr ⟨word, if_pos missed, rfl⟩)⟩
  | @item key listing word role span items index _ holds isItem =>
    cases word with
    | none => cases awaits
    | some word =>
      obtain rfl := Option.some_inj.mp awaits
      have missed : ((view source value).node ((path.member key).index index)).value.isNone :=
        value_isNone_iff.mpr other
      have reads : Field.Reads members path (.list key listing (some word) role)
          ((path.member key).index index) value := .item holds isItem
      have noted : ⟨position, (path.member key).index index, .missing word⟩ ∈
          (viewed source members path position).itemNotes (some word) role
            ((path.member key).index index)
            ((view source value).node ((path.member key).index index)).value :=
        List.mem_append_left _ (mem_missing_iff.mpr ⟨word, if_pos missed, rfl⟩)
      refine ⟨word, List.mem_append_left _ (List.mem_append_right _ (List.mem_flatMap.mpr ?_))⟩
      exact (exists_item_iff fun place view => _ ∈ Object.itemNotes _ (some word) role place
        (view.node place).value).mpr ⟨_, value, reads, noted⟩
  | comment => cases awaits

end Notes

/-! ### What is missing from a document -/

theorem cause_ne_of_readOther {json : Json} {path : Path} {defect : Defect} {what : String}
    (mem : defect ∈ (readOther json path).defects) : defect.cause ≠ .missing what := by
  rw [eq_of_mem_readOther mem]
  exact fun same => by cases same

theorem cause_ne_of_readPosition {source : Source} {members : List (String × View)} {path : Path}
    {defect : Defect} {what : String} (mem : defect ∈ (readPosition source members path).defects) :
    defect.cause ≠ .missing what := by
  obtain ⟨fault, rfl⟩ := eq_of_mem_readPosition mem
  exact fun same => by cases same

/-- The value at a place where something is missed is absent, null or misjudged. -/
theorem misjudged_of_explains {root value : Json} {path place : Path} {span : Span}
    {members : List (String × Json)} {kind : Kind} {field : Field}
    (reached : Reached root path (.object span members)) (tags : Tags members kind.tag)
    (known : kind ∈ Kind.all) (isField : field ∈ kind.fields (listsHandlers members))
    (explains : Explains members path field place) (found : root.follow place = some value)
    (there : value ≠ .null) : Misjudged root place := by
  obtain ⟨key, rfl, lacks⟩ | ⟨held, reads, null | ⟨kinds, awaits, other⟩⟩ := explains
  · -- nothing is found under a name that is lacking
    rw [follow_member reached.follow_eq] at found
    obtain nothing | null := lacks_iff.mp lacks
    · cases nothing.symm.trans found
    · exact absurd (Option.some_inj.mp (found.symm.trans null)) there
  · have same := (Reached.step reached (.mk tags known isField reads)).follow_eq
    exact absurd ((Option.some_inj.mp (found.symm.trans same)).trans null) there
  · have same := (Reached.step reached (.mk tags known isField reads)).follow_eq
    obtain rfl := Option.some_inj.mp (found.symm.trans same)
    exact .mk reached tags known isField awaits reads there other

/-- A value that is misjudged is said to be missing. -/
theorem Misjudged.missed {name : String} {text : Bytes} {json : Json} {place : Path}
    (misjudged : Misjudged json place) (parsed : Json.parse? text = some json) :
    ∃ list defect what value, decode name text = .error (.defects list) ∧ defect ∈ list ∧
      defect.path = place ∧ defect.cause = .missing what ∧
      json.follow place = some value ∧ value ≠ .null := by
  obtain ⟨reached, tags, known, isField, awaits, reads, there, other⟩ := misjudged
  obtain ⟨word, noted⟩ := exists_missed awaits reads other
  have mem := mem_defects_iff.mpr ⟨_, _, reached, .field tags known isField noted⟩
  exact ⟨_, _, word, _, decode_of_reached parsed reached mem, mem, rfl, rfl,
    (Reached.step reached (.mk tags known isField reads)).follow_eq, there⟩

/-- A value that is there is said to be missing exactly if it is misjudged: it is the body of a
program but no block, the statements of a block or an item of a list of identifiers, parameters,
declarations or arguments but no node. -/
theorem missing_though_present_iff {name : String} {text : Bytes} {json : Json}
    (parsed : Json.parse? text = some json) (place : Path) :
    (∃ list defect what value, decode name text = .error (.defects list) ∧ defect ∈ list ∧
      defect.path = place ∧ defect.cause = .missing what ∧
      json.follow place = some value ∧ value ≠ .null) ↔ Misjudged json place := by
  constructor
  · rintro ⟨list, defect, what, value, refused, mem, rfl, cause, found, there⟩
    rw [defects_of_decode parsed refused] at mem
    obtain ⟨path, outer, reached, noted⟩ := mem_defects_iff.mp mem
    cases noted with
    | shape noted other => exact absurd cause (cause_ne_of_readOther noted)
    | location noted => exact absurd cause (cause_ne_of_readPosition noted)
    | noTag untagged => cases cause
    | unknownTag tags unknown => cases cause
    | field tags known isField noted =>
      exact misjudged_of_explains reached tags known isField (explains_of_mem noted cause) found
        there
  · exact fun misjudged => misjudged.missed parsed

/-- A clause with a number in place of the only unit. -/
def numberedUses : Bytes :=
  .ofString "\x7b\"type\":\"uses_clause\",\"list\":[7]\x7d"

/-- The number is said to be missing. -/
theorem missing_though_present_numberedUses :
    ∃ json, Json.parse? numberedUses = some json ∧
      Misjudged json (.index (.member .root "list") 0) ∧
      ∃ list defect what value, decode "x.json" numberedUses = .error (.defects list) ∧
        defect ∈ list ∧ defect.path = .index (.member .root "list") 0 ∧
        defect.cause = .missing what ∧
        json.follow (.index (.member .root "list") 0) = some value ∧ value ≠ .null := by
  have clause {n : Nat} : Json.Grammar.Value n _ _ :=
    .object (.cons (member_compact "type" (by decide) (value_plain "uses_clause" (by decide)))
      (.last (member_compact "list" (by decide)
        (.array (.last (padded_compact (value_digit '7' rfl (by decide))))))))
  have written := text_of_eq (padded_compact clause) (by decide +kernel : _ = numberedUses)
  obtain ⟨parsed, top⟩ := Reached.of_text written (Nat.le_of_ble_eq_true rfl)
  have misjudged := Misjudged.of_item top .usesClause (holds_head (by simp))
    (by decide) (List.mem_of_getElem? (i := 0) rfl) rfl ((holds_head (by simp)).cons _) 0 rfl
    (by simp) (fun isOf => by cases isOf)
  exact ⟨_, parsed, misjudged, (missing_though_present_iff parsed _).mpr misjudged⟩

/-- A program with a number in place of its body. -/
def numberedBody : Bytes :=
  .ofString "\x7b\"type\":\"program\",\"body\":5\x7d"

/-- The body of a program is said to be missing, although there is a value in its place. -/
theorem missing_body_present :
    ∃ json, Json.parse? numberedBody = some json ∧
      ∃ list defect what value, decode "x.json" numberedBody = .error (.defects list) ∧
        defect ∈ list ∧ defect.path = .member .root "body" ∧ defect.cause = .missing what ∧
        json.follow (.member .root "body") = some value ∧ value ≠ .null := by
  have program {n : Nat} : Json.Grammar.Value n _ _ :=
    .object (.cons (member_compact "type" (by decide) (value_plain "program" (by decide)))
      (.last (member_compact "body" (by decide) (value_digit '5' rfl (by decide)))))
  have written := text_of_eq (padded_compact program) (by decide +kernel : _ = numberedBody)
  obtain ⟨parsed, top⟩ := Reached.of_text written (Nat.le_of_ble_eq_true rfl)
  have misjudged := Misjudged.of_child top .program (holds_head (by simp))
    (by decide) (List.mem_of_getElem? (i := 2) rfl) rfl ((holds_head (by simp)).cons _) (by simp)
    (fun isOf => by cases isOf)
  exact ⟨_, parsed, misjudged.missed parsed⟩

end PascalCompiler.Document
