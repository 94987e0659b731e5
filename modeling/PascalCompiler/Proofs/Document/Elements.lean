import Mathlib.Data.List.Forall2
import PascalCompiler.Proofs.Document.Reached
import PascalCompiler.Proofs.Document.Soundness

/-!
# The elements of lists

A tree that was read from a document has a list for each array of the document, with a node for each
item of the array, in the same order. Null among statements stands for an empty one and is left
out. It is also left out, without a word, among the declarations of a part and the elements of a
set, so there a list can be shorter than its array.

## Main definitions

* `Document.Matches`: the tree has the elements of the document, null apart where it is left out
* `Kind.holdsStatements`: the kinds of node with lists of statements
* `Kind.leavesOutNull`: the kinds of node with lists that leave out null

## Main results

* `Document.matches_of_clean`: what is read without a defect has the elements of the document
* `Document.lists_kept_iff`: a tree lacks an element exactly if null is among declarations of a
  part or elements of a set
-/

namespace PascalCompiler

/-- The lists of such a node are lists of statements. -/
def Kind.holdsStatements : Kind → Bool
  | .compoundStatement | .tryExcept | .tryFinally => true
  | _ => false

/-- The lists of such a node leave out null. -/
def Kind.leavesOutNull : Kind → Bool
  | .compoundStatement | .tryExcept | .tryFinally => true
  | .variableDeclarationPart | .constantDeclarationPart | .setConstructor => true
  | _ => false

namespace Document

/-! ### Trees with the elements of a document -/

/-- The items of an array, perhaps without those that are null. -/
def kept (drops : Bool) (items : List Json) : List Json :=
  if drops then items.filter (!·.isNull) else items

mutual

/-- The tree has the elements of the value. Null is left out of the lists of some kinds. -/
inductive Matches (drops : Kind → Bool) : Json → Node → Prop where
  | mk {span : Span} {members : List (String × Json)} {node : Node}
      (tags : Tags members node.kind.tag)
      (length_eq : node.parts.length = (node.kind.fields (listsHandlers members)).length)
      (parts : ∀ pair ∈ (node.kind.fields (listsHandlers members)).zip node.parts,
        MatchesField drops node.kind members pair.1 pair.2) :
      Matches drops (.object span members) node

/-- The part has the elements of the field, which is read from the members. -/
inductive MatchesField (drops : Kind → Bool) :
    Kind → List (String × Json) → Field → Component → Prop where
  | noChild {kind : Kind} {members : List (String × Json)} {key : String} {aliases : List String}
      {need : Need} {role : Role} {needed : Bool} (omitted : Omits members (key :: aliases)) :
      MatchesField drops kind members (.child key aliases need role)
        (.child key aliases needed none)
  | child {kind : Kind} {members : List (String × Json)} {key name : String}
      {aliases : List String} {need : Need} {role : Role} {needed : Bool} {value : Json}
      {node : Node} (stands : Stands members value (key :: aliases) name)
      (inner : Matches drops value node) :
      MatchesField drops kind members (.child key aliases need role)
        (.child key aliases needed (some node))
  | noList {kind : Kind} {members : List (String × Json)} {key : String} {listing : Listing}
      {word : Option String} {role : Role} (omitted : Omits members [key]) :
      MatchesField drops kind members (.list key listing word role) (.list key listing [])
  | list {kind : Kind} {members : List (String × Json)} {key : String} {listing : Listing}
      {word : Option String} {role : Role} {span : Span} {items : List Json} {nodes : List Node}
      (holds : Holds members key (.array span items))
      (each : List.Forall₂ (Matches drops) (kept (drops kind) items) nodes) :
      MatchesField drops kind members (.list key listing word role)
        (.list key listing (nodes.map some))
  | text {kind : Kind} {members : List (String × Json)} {key value : String}
      {aliases : List String} {needed : Bool} :
      MatchesField drops kind members (.text key aliases needed) (.text key aliases needed value)
  | integer {kind : Kind} {members : List (String × Json)} {key : String} {value : Int} :
      MatchesField drops kind members (.integer key) (.integer key value)
  | noComments {kind : Kind} {members : List (String × Json)}
      (omitted : Omits members ["comments"]) :
      MatchesField drops kind members .comments (.comments {})
  | comments {kind : Kind} {members inner : List (String × Json)} {span : Span}
      {value : ProgramComments} (holds : Holds members "comments" (.object span inner))
      (each : ∀ entry ∈ value.named, MatchesField drops kind inner
        (.child entry.1 [] .never (.kind .comment)) (.optional entry.1 .comment entry.2)) :
      MatchesField drops kind members .comments (.comments value)

end

/-! ### Reading without defects -/

section Clean

variable {drops : Kind → Bool} {name : String} {text : Bytes} {members : List (String × Json)}
  {path : Path} {position : Position} {kind : Kind}

/-- The values that a field is read from match the nodes that are read from them. -/
def Inner (drops : Kind → Bool) (source : Source) (members : List (String × Json)) (path : Path)
    (field : Field) : Prop :=
  ∀ place value node, field.Reads members path place value →
    ((view source value).node place).defects = [] →
    ((view source value).node place).value = some node → Matches drops value node

theorem read_of_clean {value : Json} {place : Path}
    (clean : ((view ⟨name, text⟩ value).node place).defects = []) (there : value ≠ .null) :
    ∃ node, ((view ⟨name, text⟩ value).node place).value = some node := by
  obtain ⟨nodeSound, -, -⟩ := view_sound name text value
  obtain ⟨node, read, -⟩ | ⟨-, null⟩ := nodeSound place clean
  · exact ⟨node, read⟩
  · rw [view_json] at null
    exact absurd null there

theorem matches_child {key : String} {aliases : List String} {need : Need} {role : Role}
    (inner : Inner drops ⟨name, text⟩ members path (.child key aliases need role))
    (clean : Field.defects text (viewed ⟨name, text⟩ members path position)
      (.child key aliases need role) = []) :
    MatchesField drops kind members (.child key aliases need role)
      (Field.part text (viewed ⟨name, text⟩ members path position)
        (.child key aliases need role)) := by
  rw [Field.defects, Object.childDefects, Object.childNotes, List.append_eq_nil_iff,
    List.append_eq_nil_iff] at clean
  obtain ⟨read, taken, -⟩ := clean
  rw [Field.part, Slot.taken, filter_admits taken]
  obtain ⟨found, value, stands⟩ | omits := stands_or_omits members (key :: aliases)
  · rw [slot_of_stands stands] at read ⊢
    have clean : ((view ⟨name, text⟩ value).node (path.member found)).defects = [] := read
    obtain ⟨node, isNode⟩ := read_of_clean clean stands.ne_null
    rw [Slot.node]
    dsimp only
    rw [isNode]
    exact .child stands (inner _ value node (.child stands) clean isNode)
  · rw [slot_of_omits omits]
    exact .noChild omits

/-- The nodes of a list are read from the items that are not null, in their order. -/
theorem forall₂_itemNodes (object : Object) (word : Option String) {role : Role} {place : Path}
    {items : List Json} (index : Nat)
    (clean : ∀ offset item, items[offset]? = some item →
      object.itemDefects word role (place.index (index + offset)) (view ⟨name, text⟩ item) = [])
    (inner : ∀ offset item node, items[offset]? = some item →
      ((view ⟨name, text⟩ item).node (place.index (index + offset))).defects = [] →
      ((view ⟨name, text⟩ item).node (place.index (index + offset))).value = some node →
      Matches drops item node) :
    List.Forall₂ (Matches drops) (items.filter (!·.isNull))
      (Object.itemNodes role place (items.map (view ⟨name, text⟩)) index) := by
  induction items generalizing index with
  | nil => exact .nil
  | cons item rest ih =>
    have others := ih (index + 1)
      (fun offset other isOther => by
        rw [Nat.add_right_comm]
        exact clean (offset + 1) other isOther)
      (fun offset other node isOther => by
        rw [Nat.add_right_comm]
        exact inner (offset + 1) other node isOther)
    have first := clean 0 item rfl
    rw [Object.itemDefects, Object.itemNotes, List.append_eq_nil_iff,
      List.append_eq_nil_iff] at first
    obtain ⟨unnoted, -, cast⟩ := first
    rw [Object.itemNodes, List.map_cons, List.zipIdx_cons, List.filterMap_cons]
    dsimp only
    by_cases null : item = .null
    · -- null is read as nothing
      rw [null]
      exact others
    · obtain ⟨node, read⟩ := read_of_clean unnoted null
      have taken : ((view ⟨name, text⟩ item).node (place.index index)).value.filter role.admits =
          some node := (filter_admits cast).trans read
      rw [taken, List.filter_cons_of_pos (by rw [isNull_eq_false null]; rfl)]
      exact .cons (inner 0 item node rfl unnoted read) others

/-- Null is missed in a list that has a word for it. -/
theorem null_not_mem_of_word {object : Object} {word : String} {role : Role} {place : Path}
    {items : List Json}
    (clean : ∀ offset item, items[offset]? = some item →
      object.itemDefects (some word) role (place.index offset) (view ⟨name, text⟩ item) = []) :
    .null ∉ items := by
  intro mem
  obtain ⟨offset, isItem⟩ := List.mem_iff_getElem?.mp mem
  cases clean offset .null isItem

theorem filter_not_isNull {items : List Json} (filled : .null ∉ items) :
    items.filter (!·.isNull) = items := by
  refine List.filter_eq_self.mpr fun item mem => ?_
  rw [isNull_eq_false fun null => filled (null ▸ mem)]
  rfl

/-- The name of a list that has no word for an item that is missing. -/
def Field.unworded? : Field → Option String
  | .list key _ none _ => some key
  | _ => none

theorem eq_list_of_unworded {field : Field} {key : String}
    (unworded : field.unworded? = some key) :
    ∃ listing role, field = .list key listing none role := by
  cases field with
  | list name listing word role =>
    cases word with
    | none =>
      obtain rfl := Option.some_inj.mp unworded
      exact ⟨listing, role, rfl⟩
    | some word => cases unworded
  | _ => cases unworded

/-- Null is in no list that leaves it out without a word, unless it is to be left out. -/
def Keeps (drops : Kind → Bool) (kind : Kind) (members : List (String × Json)) (field : Field) :
    Prop :=
  ∀ key, field.unworded? = some key → drops kind = false →
    ∀ span items, Holds members key (.array span items) → .null ∉ items

theorem matches_list {key : String} {listing : Listing} {word : Option String} {role : Role}
    (keeps : Keeps drops kind members (.list key listing word role))
    (inner : Inner drops ⟨name, text⟩ members path (.list key listing word role))
    (clean : Field.defects text (viewed ⟨name, text⟩ members path position)
      (.list key listing word role) = []) :
    MatchesField drops kind members (.list key listing word role)
      (Field.part text (viewed ⟨name, text⟩ members path position)
        (.list key listing word role)) := by
  rw [Field.defects, Object.listDefects, List.append_eq_nil_iff, List.append_eq_nil_iff,
    List.flatMap_eq_nil_iff] at clean
  obtain ⟨⟨shape, each⟩, -⟩ := clean
  rw [Field.part, Object.listed, path_slot]
  obtain ⟨value, holds, there⟩ | omits := holds_or_omits members key
  · cases value with
    | array span items =>
      rw [items_of_holds holds, path_slot] at each
      rw [items_of_holds holds]
      have clean : ∀ offset item, items[offset]? = some item →
          (viewed ⟨name, text⟩ members path position).itemDefects word role
            ((path.member key).index offset) (view ⟨name, text⟩ item) = [] :=
        fun offset item isItem => each (_, offset) (mem_zipIdx_map_view.mpr ⟨item, isItem, rfl⟩)
      have nodes : List.Forall₂ (Matches drops) (items.filter (!·.isNull))
          (Object.itemNodes role (path.member key) (items.map (view ⟨name, text⟩)) 0) := by
        refine forall₂_itemNodes (viewed ⟨name, text⟩ members path position) word 0 ?_ ?_
        · intro offset item isItem
          rw [Nat.zero_add]
          exact clean offset item isItem
        · intro offset item node isItem unnoted read
          rw [Nat.zero_add] at unnoted read
          exact inner _ item node (.item holds isItem) unnoted read
      refine .list holds ?_
      cases dropped : drops kind with
      | true => exact nodes
      | false =>
        have filled : .null ∉ items := by
          cases word with
          | none => exact keeps key rfl dropped span items holds
          | some word => exact null_not_mem_of_word clean
        rwa [filter_not_isNull filled] at nodes
    | _ =>
      rw [slot_of_stands (.first holds there)] at shape
      cases shape
  · rw [slot_of_omits omits]
    exact .noList omits

theorem named_comments_of_holds {source : Source} {span : Span} {held : List (String × Json)}
    (holds : Holds members "comments" (.object span held)) :
    (viewed source members path position).comments.value.named = commentKeys.map fun key =>
      (key, ((viewed source held (path.member "comments") position).comment? key).value) := by
  have stands : Stands members (.object span held) ["comments"] "comments" :=
    .first holds (by simp)
  simp only [Object.comments, slot_of_stands stands, view, Reading.value_bind,
    Reading.value_pure]
  rfl

theorem matches_comments (inner : Inner drops ⟨name, text⟩ members path .comments)
    (clean : Field.defects text (viewed ⟨name, text⟩ members path position) .comments = []) :
    MatchesField drops kind members .comments
      (Field.part text (viewed ⟨name, text⟩ members path position) .comments) := by
  obtain ⟨value, holds, there⟩ | omits := holds_or_omits members "comments"
  · cases value with
    | object span held =>
      rw [Field.defects, defects_comments_of_holds holds, List.flatMap_eq_nil_iff] at clean
      refine .comments holds ?_
      rw [named_comments_of_holds holds]
      intro entry isEntry
      obtain ⟨key, isKey, rfl⟩ := List.mem_map.mp isEntry
      have read : ReadsField text (viewed ⟨name, text⟩ held (path.member "comments") position)
          (.child key [] .never (.kind .comment))
          (.optional key .comment ((viewed ⟨name, text⟩ held (path.member "comments")
            position).comment? key).value)
          ((viewed ⟨name, text⟩ held (path.member "comments") position).comment? key).defects :=
        reads_optional fits_comment
      rw [read.part_eq]
      refine matches_child (fun place value node reads => ?_) (clean key isKey)
      cases reads with
      | child stands =>
        obtain rfl := List.mem_singleton.mp stands.mem
        exact inner _ value node (.comment holds isKey stands)
    | _ =>
      rw [Field.defects, Object.comments, slot_of_stands (.first holds there)] at clean
      cases clean
  · rw [Field.part, Object.comments, slot_of_omits omits]
    exact .noComments omits

theorem matches_field {field : Field} (keeps : Keeps drops kind members field)
    (inner : Inner drops ⟨name, text⟩ members path field)
    (clean : field.defects text (viewed ⟨name, text⟩ members path position) = []) :
    MatchesField drops kind members field
      (field.part text (viewed ⟨name, text⟩ members path position)) := by
  cases field with
  | child key aliases need role => exact matches_child inner clean
  | list key listing word role => exact matches_list keeps inner clean
  | text key aliases needed => exact .text
  | integer key => exact .integer
  | comments => exact matches_comments inner clean

/-- A node that is read without a defect has the elements of the value, if those that are read
from the values that this one leads to have theirs. -/
theorem matches_of_inner {value : Json} {node : Node}
    (keeps : ∀ span members, value = .object span members → ∀ kind ∈ Kind.all,
      Tags members kind.tag → ∀ field ∈ kind.fields (listsHandlers members),
        Keeps drops kind members field)
    (inner : ∀ place value' node', Leads path value place value' →
      ((view ⟨name, text⟩ value').node place).defects = [] →
      ((view ⟨name, text⟩ value').node place).value = some node' → Matches drops value' node')
    (clean : ((view ⟨name, text⟩ value).node path).defects = [])
    (read : ((view ⟨name, text⟩ value).node path).value = some node) :
    Matches drops value node := by
  obtain @⟨span, members, kind, isKind, known, tags⟩ :=
    (isOf_iff_of_value read).mpr (List.mem_singleton_self node.kind)
  obtain rfl := List.mem_singleton.mp isKind
  obtain ⟨other, defects, found, noted, reads⟩ := reads_of_tags tags known
  obtain rfl := Option.some_inj.mp (found.symm.trans read)
  rw [noted, List.append_eq_nil_iff] at clean
  have parts := reads.fields.parts_eq
  have unnoted := List.flatMap_eq_nil_iff.mp (clean.2 ▸ reads.fields.perm).symm.eq_nil
  rw [listsHandlers_viewed] at parts unnoted
  refine .mk tags (by rw [parts, List.length_map]) fun pair mem => ?_
  -- each part stands beside the field that it is read from
  rw [parts, ← List.map_prod_left_eq_zip] at mem
  obtain ⟨field, isField, rfl⟩ := List.mem_map.mp mem
  exact matches_field (keeps span members rfl other.kind known tags _ isField)
    (fun place value' node' inField => inner place value' node' (.mk tags known isField inField))
    (unnoted _ isField)

/-- What is read without a defect has the elements of the document, if the lists from which null is
not to be left out are free of it. -/
theorem matches_of_clean {root value : Json} {path : Path} {node : Node}
    (keeps : ∀ path span members, Reached root path (.object span members) →
      ∀ kind ∈ Kind.all, Tags members kind.tag →
        ∀ field ∈ kind.fields (listsHandlers members), Keeps drops kind members field)
    (reached : Reached root path value)
    (clean : ((view ⟨name, text⟩ value).node path).defects = [])
    (read : ((view ⟨name, text⟩ value).node path).value = some node) :
    Matches drops value node := by
  refine matches_of_inner (fun span members same => ?_) (fun place value' node' leads => ?_)
    clean read
  · exact keeps path span members (same ▸ reached)
  · exact matches_of_clean keeps (.step reached leads)
  termination_by sizeOf value
  decreasing_by exact leads.sizeOf_lt

end Clean

/-! ### Elements that are lost -/

section Lost

variable {drops : Kind → Bool} {root value : Json} {path : Path} {node : Node}

theorem exists_of_forall₂ {α β : Type} {related : α → β → Prop} {as : List α} {bs : List β}
    (each : List.Forall₂ related as bs) {a : α} (mem : a ∈ as) : ∃ b, related a b := by
  induction each with
  | nil => cases mem
  | cons first _ ih =>
    rcases List.mem_cons.mp mem with rfl | mem
    · exact ⟨_, first⟩
    · exact ih mem

theorem mem_kept {dropped : Bool} {items : List Json} (mem : value ∈ items)
    (there : value ≠ .null) : value ∈ kept dropped items := by
  cases dropped with
  | true => exact List.mem_filter.mpr ⟨mem, by rw [isNull_eq_false there]; rfl⟩
  | false => exact mem

theorem MatchesField.of_stands {kind : Kind} {members : List (String × Json)} {key name : String}
    {aliases : List String} {need : Need} {role : Role} {part : Component}
    (matched : MatchesField drops kind members (.child key aliases need role) part)
    (stands : Stands members value (key :: aliases) name) : ∃ node, Matches drops value node := by
  cases matched with
  | noChild omitted => exact absurd omitted stands.not_omits
  | child stands' inner =>
    obtain rfl := stands.unique stands'
    exact ⟨_, inner⟩

/-- What a matched field is read from is matched, unless it is null. -/
theorem MatchesField.of_reads {kind : Kind} {members : List (String × Json)} {field : Field}
    {part : Component} {place : Path} (matched : MatchesField drops kind members field part)
    (reads : field.Reads members path place value) (there : value ≠ .null) :
    ∃ node, Matches drops value node := by
  cases reads with
  | child stands => exact matched.of_stands stands
  | item holds isItem =>
    cases matched with
    | noList omitted =>
      exact absurd (omitted _ List.mem_cons_self) (holds.not_lacks (by simp))
    | list holds' each =>
      cases holds.unique holds'
      exact exists_of_forall₂ each (mem_kept (List.mem_of_getElem? isItem) there)
  | comment holds isKey stands =>
    cases matched with
    | noComments omitted =>
      exact absurd (omitted _ List.mem_cons_self) (holds.not_lacks (by simp))
    | @comments _ _ _ _ comments holds' each =>
      cases holds.unique holds'
      have names : commentKeys = comments.named.map Prod.fst := rfl
      rw [names] at isKey
      obtain ⟨entry, isEntry, rfl⟩ := List.mem_map.mp isKey
      exact (each entry isEntry).of_stands stands

/-- Every field of a matching object is matched by a part. -/
theorem Matches.exists_part {span : Span} {members : List (String × Json)}
    (outer : Matches drops (.object span members) node) {kind : Kind} (known : kind ∈ Kind.all)
    (tags : Tags members kind.tag) {field : Field}
    (isField : field ∈ kind.fields (listsHandlers members)) :
    ∃ part, MatchesField drops kind members field part := by
  cases outer with
  | mk tags' length_eq parts =>
    -- the node is of the kind that the tag names
    have same : node.kind = kind := by
      have found := ofTag?_of_mem (kind_mem_all node)
      rw [tags'.unique tags, ofTag?_of_mem known] at found
      exact (Option.some_inj.mp found).symm
    rw [same] at length_eq parts
    rw [← List.map_fst_zip (Nat.le_of_eq length_eq.symm)] at isField
    obtain ⟨pair, mem, rfl⟩ := List.mem_map.mp isField
    exact ⟨pair.2, parts pair mem⟩

/-- What a matching value leads to is matched, unless it is null. -/
theorem Matches.of_leads {place : Path} {inner : Json} (outer : Matches drops value node)
    (leads : Leads path value place inner) (there : inner ≠ .null) :
    ∃ node, Matches drops inner node := by
  cases leads with
  | mk tags known isField reads =>
    obtain ⟨part, matched⟩ := outer.exists_part known tags isField
    exact matched.of_reads reads there

/-- What is reached from a matching value is matched, unless it is null. -/
theorem Matches.of_reached (outer : Matches drops root node) (reached : Reached root path value)
    (there : value ≠ .null) : ∃ node, Matches drops value node := by
  induction reached with
  | root => exact ⟨node, outer⟩
  | step _ leads ih =>
    have isObject := leads
    cases isObject with
    | mk =>
      obtain ⟨node, matched⟩ := ih (by simp)
      exact matched.of_leads leads there

/-- A matching tree keeps every list that is reached. -/
theorem Matches.keeps (outer : Matches drops root node) {span : Span}
    {members : List (String × Json)} (reached : Reached root path (.object span members))
    (kind : Kind) (known : kind ∈ Kind.all) (tags : Tags members kind.tag) {field : Field}
    (isField : field ∈ kind.fields (listsHandlers members)) : Keeps drops kind members field := by
  obtain ⟨inner, matched⟩ := outer.of_reached reached (by simp)
  obtain ⟨part, matched⟩ := matched.exists_part known tags isField
  intro key unworded undropped listSpan items holds mem
  obtain ⟨listing, role, rfl⟩ := eq_list_of_unworded unworded
  cases matched with
  | noList omitted =>
    exact absurd (omitted _ List.mem_cons_self) (holds.not_lacks (by simp))
  | list holds' each =>
    cases holds.unique holds'
    rw [undropped] at each
    -- null spells no node
    obtain ⟨node, wrong⟩ := exists_of_forall₂ each mem
    cases wrong

end Lost

/-! ### Documents -/

theorem leavesOutNull_of_unworded {kind : Kind} (known : kind ∈ Kind.all) {listed : Bool}
    {field : Field} (isField : field ∈ kind.fields listed) {key : String}
    (unworded : field.unworded? = some key) :
    kind.leavesOutNull ∧ (kind.holdsStatements ∨ key = "list" ∧
      kind ∈ [.variableDeclarationPart, .constantDeclarationPart, .setConstructor]) := by
  have table : (Kind.all.all fun kind => (kind.fields true ++ kind.fields false).all fun field =>
      field.unworded?.all fun key => kind.leavesOutNull && (kind.holdsStatements ||
        (key == "list" && [Kind.variableDeclarationPart, .constantDeclarationPart,
          .setConstructor].contains kind))) = true := by decide +kernel
  have entry := Kind.check_of_mem_fields table known isField
  rw [unworded] at entry
  simpa using entry

/-- In a tree that is read from a document, every list has the items of its array, in their order,
except for null among statements, declarations of a part and elements of a set. All but empty
statements are there exactly if no such declarations and elements are null. -/
theorem lists_kept_iff {name : String} {text : Bytes} {file : File}
    (accepted : decode name text = .ok file) :
    ∃ json, Json.parse? text = some json ∧ Matches Kind.leavesOutNull json file.node ∧
      (Matches Kind.holdsStatements json file.node ↔
        ∀ path span members (kind : Kind) listSpan items,
          Reached json path (.object span members) → Tags members kind.tag →
          kind ∈ [.variableDeclarationPart, .constantDeclarationPart, .setConstructor] →
          Holds members "list" (.array listSpan items) → .null ∉ items) := by
  obtain ⟨json, parsed, clean, read⟩ := reading_of_decode accepted
  refine ⟨json, parsed, matches_of_clean ?_ .root clean read, ?_, ?_⟩
  · -- the lists without a word for what is missing all leave out null
    intro path span members reached kind known tags field isField key unworded undropped
    rw [(leavesOutNull_of_unworded known isField unworded).1] at undropped
    cases undropped
  · -- null has no node, so a list that is kept is free of it
    intro strict path span members kind listSpan items reached tags isKind holds
    simp only [List.mem_cons, List.not_mem_nil, or_false] at isKind
    obtain rfl | rfl | rfl := isKind
    · exact strict.keeps reached _ (by decide) tags List.mem_cons_self "list" rfl rfl listSpan items
        holds
    · exact strict.keeps reached _ (by decide) tags List.mem_cons_self "list" rfl rfl listSpan items
        holds
    · exact strict.keeps reached _ (by decide) tags List.mem_cons_self "list" rfl rfl listSpan items
        holds
  · -- of the other lists without such a word, all are lists of statements
    intro filled
    refine matches_of_clean ?_ .root clean read
    intro path span members reached kind known tags field isField key unworded undropped listSpan
      items holds
    obtain statements | ⟨rfl, isKind⟩ := (leavesOutNull_of_unworded known isField unworded).2
    · rw [statements] at undropped
      cases undropped
    · exact filled path span members kind listSpan items reached tags isKind holds

/-- A program with the call `P([null])`, between two empty statements. -/
def emptiedSet : Bytes :=
  .ofString ("\x7b\"type\":\"program\",\"body\":\x7b\"type\":\"block\",\"statements\":" ++
    "\x7b\"type\":\"compound_statement\",\"list\":[null," ++
    "\x7b\"type\":\"procedure_statement\",\"target\":\x7b\"type\":\"identifier\"," ++
    "\"value\":\"P\"\x7d,\"params\":[\x7b\"type\":\"set_constructor\",\"list\":[null]" ++
    "\x7d]\x7d,null]\x7d\x7d\x7d")

theorem exists_file_of_isSome {name : String} {text : Bytes}
    (accepted : (decode name text).toOption.isSome) : ∃ file, decode name text = .ok file := by
  cases read : decode name text with
  | error error =>
    rw [read] at accepted
    cases accepted
  | ok file => exact ⟨file, rfl⟩

/-- The element of the set is lost, unlike the empty statements around the call. -/
theorem lists_kept_iff_emptiedSet :
    ∃ file json, decode "x.json" emptiedSet = .ok file ∧ Json.parse? emptiedSet = some json ∧
      Matches Kind.leavesOutNull json file.node ∧
      ¬ Matches Kind.holdsStatements json file.node := by
  obtain ⟨file, accepted⟩ := exists_file_of_isSome (by decide +kernel :
    (decode "x.json" emptiedSet).toOption.isSome = true)
  have set {n : Nat} : Json.Grammar.Value n _ _ :=
    .object (.cons (member_compact "type" (by decide) (value_plain "set_constructor" (by decide)))
      (.last (member_compact "list" (by decide) (.array (.last (padded_compact .null))))))
  have target {n : Nat} : Json.Grammar.Value n _ _ :=
    .object (.cons (member_compact "type" (by decide) (value_plain "identifier" (by decide)))
      (.last (member_compact "value" (by decide) (value_plain "P" (by decide)))))
  have call {n : Nat} : Json.Grammar.Value n _ _ :=
    .object (.cons (member_compact "type" (by decide)
        (value_plain "procedure_statement" (by decide)))
      (.cons (member_compact "target" (by decide) target)
        (.last (member_compact "params" (by decide) (.array (.last (padded_compact set)))))))
  have statements {n : Nat} : Json.Grammar.Value n _ _ :=
    .object (.cons (member_compact "type" (by decide)
        (value_plain "compound_statement" (by decide)))
      (.last (member_compact "list" (by decide) (.array (.cons (padded_compact .null)
        (.cons (padded_compact call) (.last (padded_compact .null))))))))
  have block {n : Nat} : Json.Grammar.Value n _ _ :=
    .object (.cons (member_compact "type" (by decide) (value_plain "block" (by decide)))
      (.last (member_compact "statements" (by decide) statements)))
  have program {n : Nat} : Json.Grammar.Value n _ _ :=
    .object (.cons (member_compact "type" (by decide) (value_plain "program" (by decide)))
      (.last (member_compact "body" (by decide) block)))
  have written := text_of_eq (padded_compact program) (by decide +kernel : _ = emptiedSet)
  obtain ⟨json, parsed, lossy, kept⟩ := lists_kept_iff accepted
  obtain ⟨isParsed, top⟩ := Reached.of_text written (Nat.le_of_ble_eq_true rfl)
  obtain rfl := Option.some_inj.mp (isParsed.symm.trans parsed)
  refine ⟨file, _, accepted, parsed, lossy, fun strict => ?_⟩
  have body := top.child .program (holds_head (by simp)) (by decide)
    (List.mem_of_getElem? (i := 2) rfl) ((holds_head (by simp)).cons _) (by simp)
  have list := body.child .block (holds_head (by simp)) (by decide)
    (List.mem_of_getElem? (i := 1) rfl) ((holds_head (by simp)).cons _) (by simp)
  have statement := list.item .compoundStatement (holds_head (by simp)) (by decide)
    (List.mem_of_getElem? (i := 0) rfl) ((holds_head (by simp)).cons _) 1 rfl
  have argument := statement.item .procedureStatement (holds_head (by simp)) (by decide)
    (List.mem_of_getElem? (i := 1) rfl) (((holds_head (by simp)).cons _).cons _) 0 rfl
  exact kept.mp strict _ _ _ .setConstructor _ _ argument (.string (holds_head (by simp)))
    (by decide) ((holds_head (by simp)).cons _) List.mem_cons_self

/-- A unit that declares nothing but null. -/
def emptiedPart : Bytes :=
  .ofString ("\x7b\"type\":\"unit\",\"interface\":\x7b\"type\":\"interface_part\"," ++
    "\"declarations\":[\x7b\"type\":\"variable_declaration_part\",\"list\":[null]\x7d]\x7d\x7d")

/-- The declaration of the part is lost without a word. -/
theorem declaration_lost :
    ∃ file json, decode "x.json" emptiedPart = .ok file ∧ Json.parse? emptiedPart = some json ∧
      ¬ Matches Kind.holdsStatements json file.node := by
  obtain ⟨file, accepted⟩ := exists_file_of_isSome (by decide +kernel :
    (decode "x.json" emptiedPart).toOption.isSome = true)
  have part {n : Nat} : Json.Grammar.Value n _ _ :=
    .object (.cons (member_compact "type" (by decide)
        (value_plain "variable_declaration_part" (by decide)))
      (.last (member_compact "list" (by decide) (.array (.last (padded_compact .null))))))
  have interfacePart {n : Nat} : Json.Grammar.Value n _ _ :=
    .object (.cons (member_compact "type" (by decide) (value_plain "interface_part" (by decide)))
      (.last (member_compact "declarations" (by decide) (.array (.last (padded_compact part))))))
  have unit {n : Nat} : Json.Grammar.Value n _ _ :=
    .object (.cons (member_compact "type" (by decide) (value_plain "unit" (by decide)))
      (.last (member_compact "interface" (by decide) interfacePart)))
  have written := text_of_eq (padded_compact unit) (by decide +kernel : _ = emptiedPart)
  obtain ⟨parsed, top⟩ := Reached.of_text written (Nat.le_of_ble_eq_true rfl)
  refine ⟨file, _, accepted, parsed, fun strict => ?_⟩
  have interfaceReached := top.child .unit (holds_head (by simp)) (by decide)
    (List.mem_of_getElem? (i := 1) rfl) ((holds_head (by simp)).cons _) (by simp)
  have partReached := interfaceReached.item .interfacePart (holds_head (by simp)) (by decide)
    (List.mem_of_getElem? (i := 1) rfl) ((holds_head (by simp)).cons _) 0 rfl
  exact strict.keeps partReached .variableDeclarationPart (by decide)
    (.string (holds_head (by simp))) List.mem_cons_self "list" rfl rfl _ _
    ((holds_head (by simp)).cons _) List.mem_cons_self

end Document

end PascalCompiler
