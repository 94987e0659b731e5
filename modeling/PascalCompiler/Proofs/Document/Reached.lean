import PascalCompiler.Proofs.Document.Fields
import PascalCompiler.Proofs.Document.RoundTrip
import PascalCompiler.Proofs.Json.Opening

/-!
# The values of a document that are read as nodes

Reading starts at the root of a document and goes on to the members and items that the fields of
a node name. A value that is reached in this way is read whatever else is wrong with the document,
so the defects of a document are those that are noted at its reached values, each by itself.

## Main definitions

* `Document.Tags`, `Document.Stands`: the tag that members give, and where a value stands
* `Document.Leads`: from an object to the values that its fields name
* `Document.Reached`: the values that are read as nodes, each with its path
* `Json.follow`: the value at a path
* `Document.Noted`: the defects that are noted at a value by itself

## Main results

* `Document.mem_defects_node`: what is noted of a value is noted there or at a value it leads to
* `Document.mem_defects_iff`: the defects of a document are those noted at its reached values
* `Document.Reached.follow_eq`: a reached value is found by its path
-/

namespace PascalCompiler

/-- The value at a path. Of repeated members the last one counts. -/
def Json.follow (json : Json) : Document.Path → Option Json
  | .root => some json
  | .member path name =>
    match json.follow path with
    | some (.object _ members) => lookupLast name members
    | _ => none
  | .index path position =>
    match json.follow path with
    | some (.array _ items) => items[position]?
    | _ => none

namespace Document

/-! ### Members -/

section Members

variable (members : List (String × Json))

/-- The members give the tag. Null is the empty one. -/
inductive Tags : String → Prop where
  | string {span : Span} {tag : String} (given : Holds members "type" (.string span tag)) : Tags tag
  | null (given : Holds members "type" .null) : Tags ""

/-- The value stands under the name, the first of the names that has one. -/
inductive Stands (value : Json) : List String → String → Prop where
  | first {name : String} {others : List String} (holds : Holds members name value)
      (there : value ≠ .null) : Stands value (name :: others) name
  | later {name found : String} {others : List String} (lacks : Lacks members name)
      (rest : Stands value others found) : Stands value (name :: others) found

/-- Is what follows `except` written as a list? -/
def listsHandlers : Bool :=
  (lookupLast "handlers" members).any Json.isArray

end Members

/-- The names of the comments of a program. -/
def commentKeys : List String :=
  ["pre", "uses", "end", "post"]

/-- The field is read from the value at the place, below an object at the path. -/
inductive Field.Reads (members : List (String × Json)) (path : Path) : Field → Path → Json → Prop
    where
  | child {key name : String} {aliases : List String} {need : Need} {role : Role} {value : Json}
      (stands : Stands members value (key :: aliases) name) :
      Reads members path (.child key aliases need role) (path.member name) value
  | item {key : String} {listing : Listing} {word : Option String} {role : Role} {span : Span}
      {items : List Json} {position : Nat} {value : Json}
      (holds : Holds members key (.array span items)) (isItem : items[position]? = some value) :
      Reads members path (.list key listing word role) ((path.member key).index position) value
  | comment {span : Span} {inner : List (String × Json)} {name : String} {value : Json}
      (holds : Holds members "comments" (.object span inner)) (isKey : name ∈ commentKeys)
      (stands : Stands inner value [name] name) :
      Reads members path .comments ((path.member "comments").member name) value

/-- The object at the path has a known tag, and a field of its kind is read from the value at the
place. -/
inductive Leads (path : Path) : Json → Path → Json → Prop where
  | mk {span : Span} {members : List (String × Json)} {kind : Kind} {field : Field} {place : Path}
      {value : Json} (tags : Tags members kind.tag) (known : kind ∈ Kind.all)
      (isField : field ∈ kind.fields (listsHandlers members))
      (reads : field.Reads members path place value) :
      Leads path (.object span members) place value

/-- The value at the path is read as a node. -/
inductive Reached (root : Json) : Path → Json → Prop where
  | root : Reached root .root root
  | step {path place : Path} {outer value : Json} (reached : Reached root path outer)
      (leads : Leads path outer place value) : Reached root place value

namespace Reached

variable {root value : Json} {path : Path} {span tagSpan : Span} {members : List (String × Json)}
  {key : String}

/-- A text is read as its value, which is reached. -/
theorem of_text {text : Bytes} (written : Json.Grammar.Text text root)
    (shallow : root.depth ≤ Json.maxDepth) :
    Json.parse? text = some root ∧ Reached root .root root :=
  ⟨Json.parse?_of_text written shallow, .root⟩

theorem child (outer : Reached root path (.object span members)) (kind : Kind)
    (tag : Holds members "type" (.string tagSpan kind.tag)) (known : kind ∈ Kind.all)
    {aliases : List String} {need : Need} {role : Role}
    (isField : .child key aliases need role ∈ kind.fields (listsHandlers members))
    (holds : Holds members key value) (there : value ≠ .null) :
    Reached root (path.member key) value :=
  .step outer (.mk (.string tag) known isField (.child (.first holds there)))

theorem item (outer : Reached root path (.object span members)) (kind : Kind)
    (tag : Holds members "type" (.string tagSpan kind.tag)) (known : kind ∈ Kind.all)
    {listing : Listing} {word : Option String} {role : Role}
    (isField : .list key listing word role ∈ kind.fields (listsHandlers members))
    {listSpan : Span} {items : List Json} (holds : Holds members key (.array listSpan items))
    (position : Nat) (isItem : items[position]? = some value) :
    Reached root ((path.member key).index position) value :=
  .step outer (.mk (.string tag) known isField (.item holds isItem))

end Reached

/-! ### Looking members up -/

section Lookup

variable {members : List (String × Json)} {name : String} {value : Json}

theorem absent_of_lookupLast (nothing : lookupLast name members = none) :
    ∀ member ∈ members, member.1 ≠ name := by
  induction members with
  | nil => exact List.forall_mem_nil _
  | cons member rest ih =>
    obtain ⟨key, first⟩ := member
    rw [lookupLast] at nothing
    cases later : lookupLast name rest with
    | some other =>
      rw [later] at nothing
      cases nothing
    | none =>
      rw [later] at nothing
      refine List.forall_mem_cons.mpr ⟨fun same => ?_, ih later⟩
      rw [if_pos same] at nothing
      cases nothing

theorem holds_of_lookupLast (found : lookupLast name members = some value) :
    Holds members name value := by
  induction members with
  | nil => cases found
  | cons member rest ih =>
    obtain ⟨key, first⟩ := member
    rw [lookupLast] at found
    cases later : lookupLast name rest with
    | some other =>
      rw [later] at found
      obtain ⟨before, after, rfl, absent⟩ := ih (later.trans found)
      exact ⟨(key, first) :: before, after, rfl, absent⟩
    | none =>
      rw [later] at found
      by_cases same : key = name
      · rw [if_pos same] at found
        obtain rfl := Option.some_inj.mp found
        exact ⟨[], rest, by rw [same]; rfl, absent_of_lookupLast later⟩
      · rw [if_neg same] at found
        cases found

theorem Holds.unique {other : Json} (holds : Holds members name value)
    (holds' : Holds members name other) : value = other :=
  Option.some_inj.mp ((lookupLast_of_holds holds).symm.trans (lookupLast_of_holds holds'))

theorem Holds.not_lacks (holds : Holds members name value) (there : value ≠ .null) :
    ¬ Lacks members name := by
  rintro (absent | null)
  · cases (lookupLast_eq_none absent).symm.trans (lookupLast_of_holds holds)
  · exact there (holds.unique null)

theorem lacks_iff :
    Lacks members name ↔ lookupLast name members = none ∨ lookupLast name members = some .null :=
  or_congr ⟨lookupLast_eq_none, absent_of_lookupLast⟩ ⟨lookupLast_of_holds, holds_of_lookupLast⟩

/-- Under some names there is a value, or there is nothing. -/
theorem stands_or_omits (members : List (String × Json)) (names : List String) :
    (∃ name value, Stands members value names name) ∨ Omits members names := by
  induction names with
  | nil => exact .inr (List.forall_mem_nil _)
  | cons name others ih =>
    by_cases lacks : Lacks members name
    · obtain ⟨found, value, stands⟩ | omits := ih
      · exact .inl ⟨found, value, .later lacks stands⟩
      · exact .inr (List.forall_mem_cons.mpr ⟨lacks, omits⟩)
    · rw [lacks_iff, not_or] at lacks
      obtain ⟨value, found⟩ := Option.ne_none_iff_exists'.mp lacks.1
      refine .inl ⟨name, value, .first (holds_of_lookupLast found) ?_⟩
      rintro rfl
      exact lacks.2 found

theorem Stands.ne_null {names : List String} (stands : Stands members value names name) :
    value ≠ .null := by
  induction stands with
  | first _ there => exact there
  | later _ _ ih => exact ih

theorem Stands.holds {names : List String} (stands : Stands members value names name) :
    Holds members name value := by
  induction stands with
  | first holds _ => exact holds
  | later _ _ ih => exact ih

theorem Stands.mem {names : List String} (stands : Stands members value names name) :
    name ∈ names := by
  induction stands with
  | first _ _ => exact List.mem_cons_self
  | later _ _ ih => exact List.mem_cons_of_mem _ ih

theorem Stands.not_omits {names : List String} (stands : Stands members value names name) :
    ¬ Omits members names := by
  intro omits
  induction stands with
  | first holds there => exact holds.not_lacks there (omits _ List.mem_cons_self)
  | later _ _ ih => exact ih fun name mem => omits name (List.mem_cons_of_mem _ mem)

theorem Stands.unique {other : Json} {names : List String} {name' : String}
    (stands : Stands members value names name) (stands' : Stands members other names name') :
    value = other := by
  induction stands with
  | first holds there =>
    cases stands' with
    | first holds' _ => exact holds.unique holds'
    | later lacks _ => exact absurd lacks (holds.not_lacks there)
  | later lacks _ ih =>
    cases stands' with
    | first holds' there' => exact absurd lacks (holds'.not_lacks there')
    | later _ rest' => exact ih rest'

/-- Under a single name there is a value, or there is nothing. -/
theorem holds_or_omits (members : List (String × Json)) (name : String) :
    (∃ value, Holds members name value ∧ value ≠ .null) ∨ Omits members [name] := by
  obtain ⟨found, value, stands⟩ | omits := stands_or_omits members [name]
  · have holds := stands.holds
    rw [List.mem_singleton.mp stands.mem] at holds
    exact .inl ⟨value, holds, stands.ne_null⟩
  · exact .inr omits

end Lookup

/-! ### Objects of a document -/

section Objects

variable {source : Source} {members : List (String × Json)} {path : Path} {position : Position}

theorem findSome?_of_stands {names : List String} {name : String} {value : Json}
    (stands : Stands members value names name) :
    (names.findSome? fun n => ((viewed source members path position).find? n).map (n, ·)) =
      some (name, view source value) := by
  induction stands with
  | first holds there =>
    rw [List.findSome?_cons, find?_of_holds holds there]
    rfl
  | later lacks _ ih =>
    rw [List.findSome?_cons, find?_of_lacks lacks]
    exact ih

theorem slot_of_stands {key name : String} {aliases : List String} {value : Json}
    (stands : Stands members value (key :: aliases) name) :
    (viewed source members path position).slot key aliases =
      ⟨path.member name, some (view source value)⟩ := by
  rw [Object.slot, findSome?_of_stands stands]

theorem listsHandlers_viewed :
    (viewed source members path position).listsHandlers = listsHandlers members := by
  rw [Object.listsHandlers, listsHandlers]
  obtain ⟨value, holds, there⟩ | omits := holds_or_omits members "handlers"
  · rw [slot_of_stands (.first holds there), lookupLast_of_holds holds, Option.any_some,
      Option.any_some, view_json]
  · rw [slot_of_omits omits]
    obtain nothing | null := lacks_iff.mp (omits "handlers" List.mem_cons_self)
    · rw [nothing]
      rfl
    · rw [null]
      rfl

theorem viewItems_eq_map (source : Source) (items : List Json) :
    viewItems source items = items.map (view source) := by
  induction items with
  | nil => rfl
  | cons item rest ih => rw [viewItems, ih, List.map_cons]

/-- The tag that is read from the members is the one that they give. -/
theorem tag?_viewMembers {tag : String} :
    tag? (viewMembers source members) = some tag ↔ Tags members tag := by
  rw [tag?, lookupLast_viewMembers]
  constructor
  · intro read
    cases found : lookupLast "type" members with
    | none => simp [found] at read
    | some value =>
      have holds := holds_of_lookupLast found
      cases value with
      | string span text =>
        simp only [found, Option.map_some, view_json, Option.some_inj] at read
        exact .string (read ▸ holds)
      | null =>
        simp only [found, Option.map_some, view_json, Option.some_inj] at read
        exact read ▸ .null holds
      | _ => simp [found] at read
  · rintro (given | given)
    · simp [lookupLast_of_holds given]
    · simp [lookupLast_of_holds given]

theorem Tags.unique {tag tag' : String} (tags : Tags members tag) (tags' : Tags members tag') :
    tag = tag' := by
  -- the tag does not depend on the source
  have read (other : String) : tag? (viewMembers ⟨"", []⟩ members) = some other ↔
      Tags members other := tag?_viewMembers
  exact Option.some_inj.mp (((read tag).mpr tags).symm.trans ((read tag').mpr tags'))

end Objects

/-! ### What is noted at a value -/

/-- What is noted of the comments of a program, besides the defects of the comments. -/
def Object.commentNotes (object : Object) : List Defect :=
  match (object.slot "comments" []).view? with
  | none => []
  | some view =>
    match view.json with
    | .object .. =>
      let inner : Object := ⟨view.members, object.path.member "comments", object.position⟩
      commentKeys.flatMap fun key =>
        inner.childNotes (inner.slot key []) .never (.kind .comment)
    | json => [⟨object.position, object.path.member "comments", .shape .object json.typeWord⟩]

/-- What is noted of a field, besides the defects of the values it is read from. -/
def Field.notes (document : Bytes) (object : Object) : Field → List Defect
  | .child key aliases need role => object.childNotes (object.slot key aliases) need role
  | .list key listing word role =>
    (Object.items (object.slot key [])).defects ++
      ((Object.items (object.slot key [])).value.zipIdx).flatMap (fun item =>
        object.itemNotes word role ((object.path.member key).index item.2)
          (item.1.node ((object.path.member key).index item.2)).value) ++
      if listing = .nonempty ∧ object.listed key role = [] then
        [⟨object.position, object.path.member key, .noVariables⟩]
      else []
  | .text key aliases needed => (object.text key aliases needed).defects
  | .integer key => (object.integer document key).defects
  | .comments => object.commentNotes

/-- The position that the members of an object give. -/
def placeOf (source : Source) (members : List (String × Json)) (path : Path) : Position :=
  (readPosition source (viewMembers source members) path).value

/-- The defect is noted at the value at the path, by itself. -/
inductive Noted (source : Source) (path : Path) : Json → Defect → Prop where
  | shape {json : Json} {defect : Defect} (noted : defect ∈ (readOther json path).defects)
      (other : ∀ span members, json ≠ .object span members) : Noted source path json defect
  | location {span : Span} {members : List (String × Json)} {defect : Defect}
      (noted : defect ∈ (readPosition source (viewMembers source members) path).defects) :
      Noted source path (.object span members) defect
  | noTag {span : Span} {members : List (String × Json)} (untagged : ∀ tag, ¬ Tags members tag) :
      Noted source path (.object span members) ⟨placeOf source members path, path, .noTag⟩
  | unknownTag {span : Span} {members : List (String × Json)} {tag : String}
      (tags : Tags members tag) (unknown : ∀ kind ∈ Kind.all, kind.tag ≠ tag) :
      Noted source path (.object span members)
        ⟨placeOf source members path, path.member "type", .unknownTag tag⟩
  | field {span : Span} {members : List (String × Json)} {kind : Kind} {field : Field}
      {defect : Defect} (tags : Tags members kind.tag) (known : kind ∈ Kind.all)
      (isField : field ∈ kind.fields (listsHandlers members))
      (noted : defect ∈ field.notes source.text
        (viewed source members path (placeOf source members path))) :
      Noted source path (.object span members) defect

/-- Of a location, only its fault is noted. -/
theorem eq_of_mem_readPosition {source : Source} {members : List (String × View)} {path : Path}
    {defect : Defect} (mem : defect ∈ (readPosition source members path).defects) :
    ∃ fault, defect = ⟨.unknown, path.member "location", .location fault⟩ := by
  rw [readPosition] at mem
  split at mem
  · cases mem
  · split at mem
    · cases mem
    · exact ⟨_, List.mem_singleton.mp mem⟩

/-- Of a value that is no object, only its type is noted. -/
theorem eq_of_mem_readOther {json : Json} {path : Path} {defect : Defect}
    (mem : defect ∈ (readOther json path).defects) :
    defect = ⟨.unknown, path, .shape .object json.typeWord⟩ := by
  rw [readOther] at mem
  split at mem
  · cases mem
  · exact List.mem_singleton.mp mem

section Fields

variable {source : Source} {members : List (String × Json)} {path : Path} {position : Position}
  {defect : Defect}

theorem mem_defects_child {key : String} {aliases : List String} {need : Need} {role : Role} :
    defect ∈ Field.defects source.text (viewed source members path position)
        (.child key aliases need role) ↔
      defect ∈ Field.notes source.text (viewed source members path position)
          (.child key aliases need role) ∨
        ∃ place value, Field.Reads members path (.child key aliases need role) place value ∧
          defect ∈ ((view source value).node place).defects := by
  rw [Field.defects, Object.childDefects, List.mem_append, or_comm, Field.notes]
  refine or_congr_right ⟨fun noted => ?_, ?_⟩
  · obtain ⟨name, value, stands⟩ | omits := stands_or_omits members (key :: aliases)
    · rw [slot_of_stands stands] at noted
      exact ⟨_, value, .child stands, noted⟩
    · rw [slot_of_omits omits] at noted
      cases noted
  · rintro ⟨place, value, reads, noted⟩
    cases reads with
    | child stands =>
      rw [slot_of_stands stands]
      exact noted

theorem items_of_holds {key : String} {span : Span} {items : List Json}
    (holds : Holds members key (.array span items)) :
    Object.items ((viewed source members path position).slot key []) =
      pure (items.map (view source)) := by
  have stands : Stands members (.array span items) [key] key := .first holds (by simp)
  rw [slot_of_stands stands, ← viewItems_eq_map]
  rfl

/-- Unless there is an array, there are no items. -/
theorem items_eq_nil {key : String}
    (unlisted : ∀ span items, ¬ Holds members key (.array span items)) :
    (Object.items ((viewed source members path position).slot key [])).value = [] := by
  obtain ⟨value, holds, there⟩ | omits := holds_or_omits members key
  · rw [slot_of_stands (.first holds there)]
    cases value with
    | array span items => exact absurd holds (unlisted span items)
    | _ => rfl
  · rw [slot_of_omits omits]
    rfl

theorem mem_zipIdx_map_view {items : List Json} {item : View × Nat} :
    item ∈ (items.map (view source)).zipIdx ↔
      ∃ value, items[item.2]? = some value ∧ item.1 = view source value := by
  rw [List.mem_zipIdx_iff_getElem?, List.getElem?_map, Option.map_eq_some_iff]
  exact exists_congr fun value => and_congr_right fun _ => eq_comm

/-- The items of a list are the values that it is read from. -/
theorem exists_item_iff {key : String} {listing : Listing} {word : Option String} {role : Role}
    (noted : Path → View → Prop) :
    (∃ item ∈ (Object.items ((viewed source members path position).slot key [])).value.zipIdx,
        noted ((path.member key).index item.2) item.1) ↔
      ∃ place value, Field.Reads members path (.list key listing word role) place value ∧
        noted place (view source value) := by
  constructor
  · rintro ⟨item, isItem, noted⟩
    by_cases listed : ∃ span items, Holds members key (.array span items)
    · obtain ⟨span, items, holds⟩ := listed
      rw [items_of_holds holds] at isItem
      obtain ⟨value, there, same⟩ := mem_zipIdx_map_view.mp isItem
      exact ⟨_, value, .item holds there, same ▸ noted⟩
    · have nothing : (Object.items ((viewed source members path position).slot key [])).value =
          [] := items_eq_nil fun span items holds => listed ⟨span, items, holds⟩
      rw [nothing] at isItem
      cases isItem
  · rintro ⟨place, value, reads, noted⟩
    cases reads with
    | @item _ _ _ _ span items index _ holds there =>
      rw [items_of_holds holds]
      exact ⟨(view source value, index), mem_zipIdx_map_view.mpr ⟨value, there, rfl⟩, noted⟩

theorem mem_defects_list {key : String} {listing : Listing} {word : Option String} {role : Role} :
    defect ∈ Field.defects source.text (viewed source members path position)
        (.list key listing word role) ↔
      defect ∈ Field.notes source.text (viewed source members path position)
          (.list key listing word role) ∨
        ∃ place value, Field.Reads members path (.list key listing word role) place value ∧
          defect ∈ ((view source value).node place).defects := by
  have inner : (∃ item ∈ (Object.items ((viewed source members path position).slot key
      [])).value.zipIdx, defect ∈ (item.1.node ((path.member key).index item.2)).defects) ↔
      ∃ place value, Field.Reads members path (.list key listing word role) place value ∧
        defect ∈ ((view source value).node place).defects :=
    exists_item_iff fun place view => defect ∈ (view.node place).defects
  rw [Field.defects, Object.listDefects, Field.notes, ← inner]
  simp only [List.mem_append, List.mem_flatMap, path_slot, Object.itemDefects, and_or_left,
    exists_or]
  rw [or_left_comm, or_assoc, or_comm]

/-- The comments of a program are fields of the object that holds them. -/
theorem defects_comments_of_holds {span : Span} {inner : List (String × Json)}
    (holds : Holds members "comments" (.object span inner)) :
    (viewed source members path position).comments.defects =
      commentKeys.flatMap fun key => Field.defects source.text
        (viewed source inner (path.member "comments") position)
        (.child key [] .never (.kind .comment)) := by
  have stands : Stands members (.object span inner) ["comments"] "comments" :=
    .first holds (by simp)
  have comment : ∀ key, ((viewed source inner (path.member "comments") position).comment?
      key).defects = Field.defects source.text
        (viewed source inner (path.member "comments") position)
        (.child key [] .never (.kind .comment)) := fun key => defects_optional fits_comment
  simp only [Object.comments, slot_of_stands stands, view, Reading.defects_bind, commentKeys,
    Reading.defects_pure, List.flatMap_cons, List.flatMap_nil, comment]

theorem commentNotes_of_holds {span : Span} {inner : List (String × Json)}
    (holds : Holds members "comments" (.object span inner)) :
    (viewed source members path position).commentNotes =
      commentKeys.flatMap fun key => Field.notes source.text
        (viewed source inner (path.member "comments") position)
        (.child key [] .never (.kind .comment)) := by
  have stands : Stands members (.object span inner) ["comments"] "comments" :=
    .first holds (by simp)
  rw [Object.commentNotes, slot_of_stands stands]
  rfl

theorem mem_defects_comments :
    defect ∈ Field.defects source.text (viewed source members path position) .comments ↔
      defect ∈ Field.notes source.text (viewed source members path position) .comments ∨
        ∃ place value, Field.Reads members path .comments place value ∧
          defect ∈ ((view source value).node place).defects := by
  rw [Field.defects, Field.notes]
  by_cases held : ∃ span inner, Holds members "comments" (.object span inner)
  · obtain ⟨span, inner, holds⟩ := held
    rw [defects_comments_of_holds holds, commentNotes_of_holds holds]
    simp only [List.mem_flatMap, mem_defects_child, and_or_left, exists_or]
    refine or_congr_right ⟨?_, ?_⟩
    · rintro ⟨key, isKey, place, value, reads, noted⟩
      cases reads with
      | child stands =>
        obtain rfl := List.mem_singleton.mp stands.mem
        exact ⟨_, value, .comment holds isKey stands, noted⟩
    · rintro ⟨place, value, reads, noted⟩
      cases reads with
      | comment holds' isKey stands =>
        cases holds.unique holds'
        exact ⟨_, isKey, _, value, .child stands, noted⟩
  · -- what is no object holds no comments
    have nothing : ¬ ∃ place value, Field.Reads members path .comments place value ∧
        defect ∈ ((view source value).node place).defects := by
      rintro ⟨place, value, reads, -⟩
      cases reads with
      | comment holds isKey stands => exact held ⟨_, _, holds⟩
    rw [or_iff_left nothing, Object.comments, Object.commentNotes]
    obtain ⟨value, holds, there⟩ | omits := holds_or_omits members "comments"
    · rw [slot_of_stands (.first holds there)]
      cases value with
      | object span inner => exact absurd ⟨span, inner, holds⟩ held
      | _ => exact Iff.rfl
    · rw [slot_of_omits omits]
      exact Iff.rfl

/-- What is noted of a field is noted there or at the values it is read from. -/
theorem mem_defects_field {field : Field} :
    defect ∈ field.defects source.text (viewed source members path position) ↔
      defect ∈ field.notes source.text (viewed source members path position) ∨
        ∃ place value, field.Reads members path place value ∧
          defect ∈ ((view source value).node place).defects := by
  have leaf (atLeaf : ∀ place value, ¬ field.Reads members path place value) :
      ¬ ∃ place value, field.Reads members path place value ∧
        defect ∈ ((view source value).node place).defects := by
    rintro ⟨place, value, reads, -⟩
    exact atLeaf place value reads
  cases field with
  | child key aliases need role => exact mem_defects_child
  | list key listing word role => exact mem_defects_list
  | text key aliases needed => exact (or_iff_left (leaf fun _ _ reads => by cases reads)).symm
  | integer key => exact (or_iff_left (leaf fun _ _ reads => by cases reads)).symm
  | comments => exact mem_defects_comments

end Fields

/-! ### What is noted in a document -/

section Defects

variable {source : Source} {path : Path}

theorem readObject_of_tags {members : List (String × Json)} {kind : Kind}
    (tags : Tags members kind.tag) (known : kind ∈ Kind.all) :
    readObject source (viewMembers source members) path = (do
      let position ← readPosition source (viewMembers source members) path
      readKind source (viewed source members path position) kind) := by
  rw [readObject, tag?_viewMembers.mpr tags]
  simp only [ofTag?_of_mem known]

/-- An object with a known tag is read field by field. -/
theorem reads_of_tags {span : Span} {members : List (String × Json)} {kind : Kind}
    (tags : Tags members kind.tag) (known : kind ∈ Kind.all) :
    ∃ node defects, ((view source (.object span members)).node path).value = some node ∧
      ((view source (.object span members)).node path).defects =
        (readPosition source (viewMembers source members) path).defects ++ defects ∧
      ReadsNode source.text (viewed source members path (placeOf source members path)) kind node
        defects := by
  obtain ⟨node, value, reads⟩ := readKind_fields source
    (viewed source members path (placeOf source members path)) known
  have read : (view source (.object span members)).node path = _ := readObject_of_tags tags known
  rw [read]
  exact ⟨node, _, value, rfl, reads⟩

/-- Of an object without a known tag, the location and the tag are noted. -/
theorem readObject_of_unknown {members : List (String × Json)}
    (unknown : ∀ kind ∈ Kind.all, ¬ Tags members kind.tag) :
    (readObject source (viewMembers source members) path).value = none ∧
      ∀ defect, defect ∈ (readObject source (viewMembers source members) path).defects ↔
        defect ∈ (readPosition source (viewMembers source members) path).defects ∨
        ((∀ tag, ¬ Tags members tag) ∧
          defect = ⟨placeOf source members path, path, .noTag⟩) ∨
        ∃ tag, Tags members tag ∧
          defect = ⟨placeOf source members path, path.member "type", .unknownTag tag⟩ := by
  rw [readObject]
  cases tagged : tag? (viewMembers source members) with
  | none =>
    have untagged : ∀ tag, ¬ Tags members tag := fun tag tags => by
      rw [tag?_viewMembers.mpr tags] at tagged
      cases tagged
    simp [untagged, placeOf]
  | some tag =>
    have tags : Tags members tag := tag?_viewMembers.mp tagged
    have only : ∀ other, Tags members other ↔ other = tag := fun other => by
      rw [← tag?_viewMembers, tagged, Option.some_inj, eq_comm]
    have none : Kind.ofTag? tag = none := by
      rw [Kind.ofTag?, List.find?_eq_none]
      intro kind known same
      rw [decide_eq_true_eq] at same
      exact unknown kind known (same ▸ tags)
    simp [none, only, placeOf]

theorem mem_defects_of_tags {span : Span} {members : List (String × Json)} {kind : Kind}
    (tags : Tags members kind.tag) (known : kind ∈ Kind.all) {defect : Defect} :
    defect ∈ ((view source (.object span members)).node path).defects ↔
      defect ∈ (readPosition source (viewMembers source members) path).defects ∨
        ∃ field ∈ kind.fields (listsHandlers members),
          defect ∈ field.defects source.text
            (viewed source members path (placeOf source members path)) := by
  obtain ⟨node, defects, -, noted, reads⟩ := reads_of_tags tags known
  rw [noted, List.mem_append, reads.fields.perm.mem_iff, List.mem_flatMap, listsHandlers_viewed]

/-- What is noted of a value is noted there or at a value that it leads to. -/
theorem mem_defects_node {json : Json} {defect : Defect} :
    defect ∈ ((view source json).node path).defects ↔
      Noted source path json defect ∨
        ∃ place value, Leads path json place value ∧
          defect ∈ ((view source value).node place).defects := by
  constructor
  · intro noted
    cases json with
    | object span members =>
      -- fields are read only if the tag says which ones
      by_cases known : ∃ kind ∈ Kind.all, Tags members kind.tag
      · obtain ⟨kind, known, tags⟩ := known
        obtain located | ⟨field, isField, inField⟩ := (mem_defects_of_tags tags known).mp noted
        · exact .inl (.location located)
        · obtain here | ⟨place, value, reads, inner⟩ := mem_defects_field.mp inField
          · exact .inl (.field tags known isField here)
          · exact .inr ⟨place, value, .mk tags known isField reads, inner⟩
      · have unknown : ∀ kind ∈ Kind.all, ¬ Tags members kind.tag :=
          fun kind is tags => known ⟨kind, is, tags⟩
        obtain located | ⟨untagged, rfl⟩ | ⟨tag, tags, rfl⟩ :=
          ((readObject_of_unknown unknown).2 defect).mp noted
        · exact .inl (.location located)
        · exact .inl (.noTag untagged)
        · exact .inl (.unknownTag tags fun kind is same => unknown kind is (same ▸ tags))
    | _ => exact .inl (.shape noted fun _ _ same => by cases same)
  · rintro (noted | ⟨place, value, leads, inner⟩)
    · cases noted with
      | shape noted other =>
        cases json with
        | object span members => exact absurd rfl (other span members)
        | _ => exact noted
      | location noted => exact List.mem_append_left _ noted
      | noTag untagged =>
        exact ((readObject_of_unknown fun kind _ => untagged kind.tag).2 _).mpr
          (.inr (.inl ⟨untagged, rfl⟩))
      | unknownTag tags unknown =>
        exact ((readObject_of_unknown fun kind is other => unknown kind is (other.unique tags)).2
          _).mpr (.inr (.inr ⟨_, tags, rfl⟩))
      | field tags known isField noted =>
        exact (mem_defects_of_tags tags known).mpr
          (.inr ⟨_, isField, mem_defects_field.mpr (.inl noted)⟩)
    · cases leads with
      | mk tags known isField reads =>
        exact (mem_defects_of_tags tags known).mpr
          (.inr ⟨_, isField, mem_defects_field.mpr (.inr ⟨place, value, reads, inner⟩)⟩)

/-! ### Sizes and places -/

theorem sizeOf_lt_of_holds {members : List (String × Json)} {name : String} {value : Json}
    (holds : Holds members name value) : sizeOf value < sizeOf members := by
  obtain ⟨before, after, rfl, -⟩ := holds
  have mem : (name, value) ∈ before ++ (name, value) :: after := by simp
  have size := List.sizeOf_lt_of_mem mem
  simp only [Prod.mk.sizeOf_spec] at size
  omega

theorem Leads.sizeOf_lt {json value : Json} {place : Path} (leads : Leads path json place value) :
    sizeOf value < sizeOf json := by
  cases leads with
  | mk tags known isField reads =>
    cases reads with
    | child stands =>
      have size := sizeOf_lt_of_holds stands.holds
      simp only [Json.object.sizeOf_spec]
      omega
    | item holds isItem =>
      have size := sizeOf_lt_of_holds holds
      have inner := List.sizeOf_lt_of_mem (List.mem_of_getElem? isItem)
      simp only [Json.object.sizeOf_spec, Json.array.sizeOf_spec] at size ⊢
      omega
    | comment holds isKey stands =>
      have size := sizeOf_lt_of_holds holds
      have inner := sizeOf_lt_of_holds stands.holds
      simp only [Json.object.sizeOf_spec] at size ⊢
      omega

/-- What is noted of a reached value is noted at some reached value. -/
theorem exists_noted_of_mem {root json : Json} {path : Path} {defect : Defect}
    (reached : Reached root path json) (mem : defect ∈ ((view source json).node path).defects) :
    ∃ place value, Reached root place value ∧ Noted source place value defect := by
  obtain noted | ⟨place, value, leads, inner⟩ := mem_defects_node.mp mem
  · exact ⟨path, json, reached, noted⟩
  · exact exists_noted_of_mem (.step reached leads) inner
  termination_by sizeOf json
  decreasing_by exact leads.sizeOf_lt

/-- What is noted of a reached value is noted of the document. -/
theorem Reached.mem_defects {root json : Json} {defect : Defect} (reached : Reached root path json)
    (mem : defect ∈ ((view source json).node path).defects) :
    defect ∈ ((view source root).node .root).defects := by
  induction reached with
  | root => exact mem
  | step _ leads ih => exact ih (mem_defects_node.mpr (.inr ⟨_, _, leads, mem⟩))

/-- The defects of a document are those that are noted at its reached values. -/
theorem mem_defects_iff {root : Json} {defect : Defect} :
    defect ∈ ((view source root).node .root).defects ↔
      ∃ place value, Reached root place value ∧ Noted source place value defect := by
  constructor
  · exact exists_noted_of_mem .root
  · rintro ⟨place, value, reached, noted⟩
    exact reached.mem_defects (mem_defects_node.mpr (.inl noted))

end Defects

/-! ### Following paths -/

theorem follow_member {json : Json} {path : Path} {span : Span} {members : List (String × Json)}
    (here : json.follow path = some (.object span members)) (name : String) :
    json.follow (path.member name) = lookupLast name members := by
  rw [Json.follow, here]

theorem follow_index {json : Json} {path : Path} {span : Span} {items : List Json}
    (here : json.follow path = some (.array span items)) (position : Nat) :
    json.follow (path.index position) = items[position]? := by
  rw [Json.follow, here]

/-- A reached value is found by its path. -/
theorem Reached.follow_eq {root value : Json} {path : Path} (reached : Reached root path value) :
    root.follow path = some value := by
  induction reached with
  | root => rfl
  | step _ leads ih =>
    cases leads with
    | mk tags known isField reads =>
      cases reads with
      | child stands => rw [follow_member ih, lookupLast_of_holds stands.holds]
      | item holds isItem =>
        have list := (follow_member ih _).trans (lookupLast_of_holds holds)
        rw [follow_index list, isItem]
      | comment holds isKey stands =>
        have comments := (follow_member ih _).trans (lookupLast_of_holds holds)
        rw [follow_member comments, lookupLast_of_holds stands.holds]

/-! ### Values that spell nodes -/

/-- The value is an object with the tag of one of the kinds. -/
inductive IsOf (kinds : List Kind) : Json → Prop where
  | mk {span : Span} {members : List (String × Json)} {kind : Kind} (isKind : kind ∈ kinds)
      (known : kind ∈ Kind.all) (tags : Tags members kind.tag) : IsOf kinds (.object span members)

section Nodes

variable {source : Source} {path : Path} {value : Json}

theorem exists_node_of_isOf {kinds : List Kind} (isOf : IsOf kinds value) :
    ∃ node, ((view source value).node path).value = some node ∧ node.kind ∈ kinds := by
  cases isOf with
  | mk isKind known tags =>
    obtain ⟨node, defects, read, -, reads⟩ := reads_of_tags tags known
    exact ⟨node, read, reads.kind_eq ▸ isKind⟩

theorem not_isOf_of_value {kinds : List Kind}
    (nothing : ((view source value).node path).value = none) : ¬ IsOf kinds value := by
  intro isOf
  obtain ⟨node, found, -⟩ := exists_node_of_isOf isOf
  cases nothing.symm.trans found

/-- Only an object with a known tag is read as a node, and the node is of that kind. -/
theorem isOf_iff_of_value {node : Node} {kinds : List Kind}
    (read : ((view source value).node path).value = some node) :
    IsOf kinds value ↔ node.kind ∈ kinds := by
  constructor
  · intro isOf
    obtain ⟨other, found, isKind⟩ := exists_node_of_isOf isOf
    obtain rfl := Option.some_inj.mp (found.symm.trans read)
    exact isKind
  · intro isKind
    cases value with
    | object span members =>
      by_cases known : ∃ kind ∈ Kind.all, Tags members kind.tag
      · obtain ⟨kind, known, tags⟩ := known
        obtain ⟨other, defects, found, -, reads⟩ := reads_of_tags tags known
        obtain rfl := Option.some_inj.mp (found.symm.trans read)
        exact .mk (reads.kind_eq ▸ isKind) known tags
      · have nothing : ((view source (.object span members)).node path).value = none :=
          (readObject_of_unknown fun kind is tags => known ⟨kind, is, tags⟩).1
        cases nothing.symm.trans read
    | null => cases read
    | _ => cases read

theorem value_isNone_iff :
    ((view source value).node path).value.isNone ↔ ¬ IsOf Kind.all value := by
  cases read : ((view source value).node path).value with
  | none => exact iff_of_true rfl (not_isOf_of_value read)
  | some node =>
    rw [isOf_iff_of_value read]
    exact iff_of_false Bool.false_ne_true (not_not_intro (kind_mem_all node))

theorem filter_isNone_iff {role : Role} :
    (((view source value).node path).value.filter role.admits).isNone ↔
      ¬ IsOf role.kinds value := by
  cases read : ((view source value).node path).value with
  | none => exact iff_of_true rfl (not_isOf_of_value read)
  | some node =>
    rw [isOf_iff_of_value read, Option.isNone_iff_eq_none, Option.filter_eq_none_iff]
    simp [Role.admits]

end Nodes

/-! ### Documents -/

/-- What begins with an object is an object, since all else is read as nothing. -/
theorem Reached.root_object {root : Json} {path : Path} {span : Span}
    {members : List (String × Json)} (reached : Reached root path (.object span members)) :
    ∃ span members, root = .object span members := by
  -- whatever is reached in a step is reached through the root
  have from_root {path : Path} {value : Json} (reached : Reached root path value) :
      value = root ∨ ∃ span members, root = .object span members := by
    induction reached with
    | root => exact .inl rfl
    | step _ leads ih =>
      obtain rfl | isObject := ih
      · cases leads with
        | mk => exact .inr ⟨_, _, rfl⟩
      · exact .inr isObject
  obtain same | isObject := from_root reached
  · exact ⟨span, members, same.symm⟩
  · exact isObject

/-- A document with a defect at an object that is read is refused. -/
theorem decode_of_reached {name : String} {text : Bytes} {json : Json} {path : Path} {span : Span}
    {members : List (String × Json)} {defect : Defect} (parsed : Json.parse? text = some json)
    (reached : Reached json path (.object span members))
    (mem : defect ∈ ((view ⟨name, text⟩ json).node .root).defects) :
    decode name text = .error (.defects ((view ⟨name, text⟩ json).node .root).defects) := by
  -- a text with an object is neither empty nor null
  have filled : isVoid text = false := by
    obtain ⟨_, _, rfl⟩ := reached.root_object
    obtain ⟨before, rest, blank, rfl⟩ := Json.exists_brace_of_parse? parsed
    exact isVoid_eq_false blank rest
  have some : ((view ⟨name, text⟩ json).node .root).defects.isEmpty = false :=
    List.isEmpty_eq_false_iff.mpr (List.ne_nil_of_mem mem)
  rw [decode, filled, parsed]
  simp only [some, Bool.false_eq_true, if_false]

/-- The defects for which a document is refused are those that are noted of its root. -/
theorem defects_of_decode {name : String} {text : Bytes} {json : Json} {list : List Defect}
    (parsed : Json.parse? text = some json) (refused : decode name text = .error (.defects list)) :
    list = ((view ⟨name, text⟩ json).node .root).defects := by
  rw [decode] at refused
  split at refused
  · cases refused
  · rw [parsed] at refused
    dsimp only at refused
    split at refused
    · -- without defects there is another reason
      rw [fileOf.eq_def] at refused
      split at refused <;> cases refused
    · cases refused
      rfl

end Document

end PascalCompiler
