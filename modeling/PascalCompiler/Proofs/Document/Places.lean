import Mathlib.Data.List.Nodup
import PascalCompiler.Proofs.Document.Elements

/-!
# Where defects are noted

What is noted of a value is noted at its own path or further on: under the members that its fields
are read from, and no member belongs to two fields. So what is noted inside a reached value is
noted by the reading of that value alone, once, and nothing else in the document adds to it. If
nothing is noted at all, the node that is read from a reached value is a node of the tree.

## Main definitions

* `Document.Path.steps`: the steps of a path, from the root
* `Document.Path.Covers`, `Document.Path.Inside`: a place is at or behind a path
* `Document.Field.keys`: the members that a field is read from

## Main results

* `Document.covers_of_mem_defects`: what is noted of a value is noted at or behind its path
* `Document.Reached.perm_filter`: what is noted inside a reached value is noted of that value
* `Document.Reached.within`: the node that is read from a reached value is a node of the tree
-/

namespace PascalCompiler.Document

/-! ### Paths as lists of steps -/

namespace Path

/-- The names of members and the positions of items on a path, from the root. -/
def steps : Path → List (String ⊕ Nat)
  | .root => []
  | .member path name => path.steps ++ [.inl name]
  | .index path position => path.steps ++ [.inr position]

/-- The place is that of the value at the path, or lies in this value. -/
def Covers (path place : Path) : Prop :=
  path.steps <+: place.steps

/-- The place lies in the value at the path. -/
def Inside (path place : Path) : Prop :=
  path.Covers place ∧ path.steps.length < place.steps.length

variable {path place : Path}

theorem Covers.refl (path : Path) : path.Covers path :=
  List.prefix_refl _

theorem Covers.trans {inner : Path} (covers : path.Covers inner) (next : inner.Covers place) :
    path.Covers place :=
  List.IsPrefix.trans covers next

theorem covers_member (path : Path) (name : String) : path.Covers (path.member name) :=
  List.prefix_append _ _

theorem covers_index (path : Path) (position : Nat) : path.Covers (path.index position) :=
  List.prefix_append _ _

theorem inside_member (path : Path) (name : String) : path.Inside (path.member name) :=
  ⟨covers_member path name, by simp [steps]⟩

theorem Covers.inside {inner : Path} (covers : path.Covers inner) (inside : inner.Inside place) :
    path.Inside place :=
  ⟨covers.trans inside.1, Nat.lt_of_le_of_lt covers.length_le inside.2⟩

theorem Inside.ne (inside : path.Inside place) : path ≠ place := by
  rintro rfl
  exact Nat.lt_irrefl _ inside.2

/-- A place lies behind one step from a path. -/
theorem step_unique {first second : String ⊕ Nat} (onward : path.steps ++ [first] <+: place.steps)
    (onward' : path.steps ++ [second] <+: place.steps) : first = second := by
  have same : path.steps ++ [first] = path.steps ++ [second] :=
    (List.prefix_of_prefix_length_le onward onward' (by simp)).eq_of_length (by simp)
  exact List.singleton_inj.mp (List.append_cancel_left same)

theorem Covers.member_unique {name name' : String} (covers : (path.member name).Covers place)
    (covers' : (path.member name').Covers place) : name = name' :=
  Sum.inl.inj (step_unique covers covers')

theorem Covers.index_unique {position position' : Nat}
    (covers : (path.index position).Covers place)
    (covers' : (path.index position').Covers place) : position = position' :=
  Sum.inr.inj (step_unique covers covers')

end Path

/-! ### Lists of defects -/

section Lists

variable {α β : Type} {related : α → α → Prop} {list : List α} {f : α → List β} {p : β → Bool}

/-- Of lists that are joined, only one has elements that are chosen. -/
theorem filter_flatMap_of_pairwise (pairwise : list.Pairwise related) {a : α} (mem : a ∈ list)
    (others : ∀ b ∈ list, related a b ∨ related b a → ∀ x ∈ f b, ¬ p x) :
    (list.flatMap f).filter p = (f a).filter p := by
  obtain ⟨before, after, rfl⟩ := List.append_of_mem mem
  obtain ⟨-, behind, across⟩ := List.pairwise_append.mp pairwise
  have noBefore : (before.flatMap f).filter p = [] := by
    rw [List.filter_eq_nil_iff]
    intro x inBefore
    obtain ⟨b, isBefore, inList⟩ := List.mem_flatMap.mp inBefore
    exact others b (List.mem_append_left _ isBefore)
      (.inr (across b isBefore a List.mem_cons_self)) x inList
  have noAfter : (after.flatMap f).filter p = [] := by
    rw [List.filter_eq_nil_iff]
    intro x inAfter
    obtain ⟨b, isAfter, inList⟩ := List.mem_flatMap.mp inAfter
    exact others b (List.mem_append_right _ (List.mem_cons_of_mem _ isAfter))
      (.inl (List.rel_of_pairwise_cons behind isAfter)) x inList
  rw [List.flatMap_append, List.flatMap_cons, List.filter_append, List.filter_append, noBefore,
    noAfter, List.nil_append, List.append_nil]

theorem pairwise_zipIdx (list : List α) (start : Nat) :
    (list.zipIdx start).Pairwise fun first second => first.2 ≠ second.2 := by
  rw [← List.pairwise_map, List.zipIdx_map_snd]
  exact List.nodup_range'

end Lists

/-! ### The members of fields -/

/-- The names of the members that a field is read from. -/
def Field.keys : Field → List String
  | .child key aliases _ _ | .text key aliases _ => key :: aliases
  | .list key _ _ _ | .integer key => [key]
  | .comments => ["comments"]

theorem location_not_mem_keys {kind : Kind} (known : kind ∈ Kind.all) {listed : Bool}
    {field : Field} (isField : field ∈ kind.fields listed) : "location" ∉ field.keys := by
  have table : (Kind.all.all fun kind => (kind.fields true ++ kind.fields false).all
      fun field => "location" ∉ field.keys) = true := by decide +kernel
  exact of_decide_eq_true (Kind.check_of_mem_fields table known isField)

/-- No member belongs to two fields of a kind. -/
theorem pairwise_keys {kind : Kind} (known : kind ∈ Kind.all) (listed : Bool) :
    (kind.fields listed).Pairwise fun first second => ∀ key ∈ first.keys, key ∉ second.keys := by
  have table : ∀ kind ∈ Kind.all, ∀ listed : Bool, (kind.fields listed).Pairwise
      fun first second => ∀ key ∈ first.keys, key ∉ second.keys := by decide +kernel
  exact table kind known listed

/-! ### Where the notes on a field are -/

section Notes

variable {source : Source} {members : List (String × Json)} {path place : Path}
  {position : Position} {defect : Defect}

theorem path_of_mem_miscast {role : Role} {node : Option Node}
    (mem : defect ∈ miscast role place node) : defect.path = place := by
  obtain ⟨other, -, rfl⟩ := List.mem_map.mp mem
  rfl

theorem path_of_mem_missing {object : Object} {word : Option String}
    (mem : defect ∈ object.missing place word) : defect.path = place := by
  obtain ⟨what, -, rfl⟩ := List.mem_map.mp mem
  rfl

theorem path_of_mem_childNotes {object : Object} {slot : Slot} {need : Need} {role : Role}
    (mem : defect ∈ object.childNotes slot need role) : defect.path = slot.path := by
  obtain cast | missed := List.mem_append.mp mem
  · exact path_of_mem_miscast cast
  · exact path_of_mem_missing missed

theorem path_of_mem_itemNotes {object : Object} {word : Option String} {role : Role}
    {node : Option Node} (mem : defect ∈ object.itemNotes word role place node) :
    defect.path = place := by
  obtain missed | cast := List.mem_append.mp mem
  · exact path_of_mem_missing missed
  · exact path_of_mem_miscast cast

theorem path_of_mem_items {slot : Slot} (mem : defect ∈ (Object.items slot).defects) :
    defect.path = slot.path := by
  rw [Object.items] at mem
  split at mem
  · cases mem
  · split at mem
    · cases mem
    · obtain rfl := List.mem_singleton.mp mem
      rfl

theorem path_of_mem_text {object : Object} {key : String} {aliases : List String} {needed : Bool}
    (mem : defect ∈ (object.text key aliases needed).defects) :
    defect.path = (object.slot key aliases).path := by
  rw [Object.text] at mem
  dsimp only at mem
  split at mem
  · cases needed with
    | true => rw [List.mem_singleton.mp mem]
    | false => cases mem
  · split at mem
    · cases mem
    · rw [List.mem_singleton.mp mem]

theorem path_of_mem_integer {object : Object} {document : Bytes} {key : String}
    (mem : defect ∈ (object.integer document key).defects) :
    defect.path = object.path.member key := by
  rw [Object.integer] at mem
  split at mem
  · rw [List.mem_singleton.mp mem, path_slot]
  · split at mem
    · cases mem
    · rw [List.mem_singleton.mp mem, path_slot]

theorem covers_of_mem_commentNotes {object : Object} (mem : defect ∈ object.commentNotes) :
    (object.path.member "comments").Covers defect.path := by
  rw [Object.commentNotes] at mem
  split at mem
  · cases mem
  · split at mem
    · obtain ⟨key, -, noted⟩ := List.mem_flatMap.mp mem
      rw [path_of_mem_childNotes noted, path_slot]
      exact Path.covers_member _ key
    · rw [List.mem_singleton.mp mem]
      exact .refl _

/-- What is noted of a field is noted under one of its members. -/
theorem covers_of_mem_notes {field : Field} {document : Bytes} {object : Object}
    (mem : defect ∈ field.notes document object) :
    ∃ key ∈ field.keys, (object.path.member key).Covers defect.path := by
  cases field with
  | child key aliases need role =>
    obtain ⟨name, isKey, same⟩ := exists_path_slot object key aliases
    rw [path_of_mem_childNotes mem, same]
    exact ⟨name, isKey, .refl _⟩
  | list key listing word role =>
    refine ⟨key, List.mem_singleton_self key, ?_⟩
    rw [Field.notes, List.mem_append, List.mem_append, List.mem_flatMap] at mem
    obtain (shape | ⟨item, -, noted⟩) | nothing := mem
    · rw [path_of_mem_items shape, path_slot]
      exact .refl _
    · rw [path_of_mem_itemNotes noted]
      exact Path.covers_index _ _
    · split at nothing
      · rw [List.mem_singleton.mp nothing]
        exact .refl _
      · cases nothing
  | text key aliases needed =>
    obtain ⟨name, isKey, same⟩ := exists_path_slot object key aliases
    rw [path_of_mem_text mem, same]
    exact ⟨name, isKey, .refl _⟩
  | integer key =>
    rw [path_of_mem_integer mem]
    exact ⟨key, List.mem_singleton_self key, .refl _⟩
  | comments => exact ⟨"comments", List.mem_singleton_self _, covers_of_mem_commentNotes mem⟩

/-- A field is read from values under its members. -/
theorem covers_of_reads {field : Field} {value : Json}
    (reads : field.Reads members path place value) :
    ∃ key ∈ field.keys, (path.member key).Covers place := by
  cases reads with
  | child stands => exact ⟨_, stands.mem, .refl _⟩
  | item holds isItem => exact ⟨_, List.mem_singleton_self _, Path.covers_index _ _⟩
  | comment holds isKey stands => exact ⟨_, List.mem_singleton_self _, Path.covers_member _ _⟩

/-- What is noted at a value by itself is noted at its path or at one of its members. -/
theorem Noted.covers {json : Json} (noted : Noted source path json defect) :
    path.Covers defect.path := by
  cases noted with
  | shape noted other => exact eq_of_mem_readOther noted ▸ .refl path
  | location noted =>
    obtain ⟨fault, rfl⟩ := eq_of_mem_readPosition noted
    exact Path.covers_member path _
  | noTag untagged => exact .refl path
  | unknownTag tags unknown => exact Path.covers_member path _
  | field tags known isField noted =>
    obtain ⟨key, -, covers⟩ := covers_of_mem_notes noted
    exact (Path.covers_member path key).trans covers

theorem Leads.covers {json value : Json} (leads : Leads path json place value) :
    path.Covers place := by
  cases leads with
  | mk tags known isField reads =>
    obtain ⟨key, -, covers⟩ := covers_of_reads reads
    exact (Path.covers_member path key).trans covers

/-- What is noted of a value is noted at or behind its path. -/
theorem covers_of_mem_defects {json : Json} {path : Path}
    (mem : defect ∈ ((view source json).node path).defects) : path.Covers defect.path := by
  obtain noted | ⟨place, value, leads, inner⟩ := mem_defects_node.mp mem
  · exact noted.covers
  · exact leads.covers.trans (covers_of_mem_defects inner)
  termination_by sizeOf json
  decreasing_by exact leads.sizeOf_lt

theorem covers_of_mem_field {field : Field}
    (mem : defect ∈ field.defects source.text (viewed source members path position)) :
    ∃ key ∈ field.keys, (path.member key).Covers defect.path := by
  obtain noted | ⟨place, value, reads, inner⟩ := mem_defects_field.mp mem
  · exact covers_of_mem_notes noted
  · obtain ⟨key, isKey, covers⟩ := covers_of_reads reads
    exact ⟨key, isKey, covers.trans (covers_of_mem_defects inner)⟩

end Notes

/-! ### What is noted inside a value -/

section Filter

variable {source : Source} {members : List (String × Json)} {path place inner : Path}
  {position : Position} {value : Json}

/-- Notes elsewhere are not those at the place. -/
theorem filter_path_eq_nil {defects : List Defect} (elsewhere : ∀ defect ∈ defects,
    defect.path ≠ place) : defects.filter (·.path = place) = [] := by
  rw [List.filter_eq_nil_iff]
  exact fun defect mem same => elsewhere defect mem (of_decide_eq_true same)

theorem filter_child {key name : String} {aliases : List String} {need : Need} {role : Role}
    (stands : Stands members value (key :: aliases) name)
    (inside : (path.member name).Inside place) :
    (Field.defects source.text (viewed source members path position)
        (.child key aliases need role)).filter (·.path = place) =
      ((view source value).node (path.member name)).defects.filter (·.path = place) := by
  rw [Field.defects, slot_of_stands stands, Object.childDefects, List.filter_append]
  -- what the field itself notes is noted at the value, and not inside it
  have nothing : (Object.childNotes (viewed source members path position)
      ⟨path.member name, some (view source value)⟩ need role).filter (·.path = place) = [] :=
    filter_path_eq_nil fun defect mem => path_of_mem_childNotes mem ▸ inside.ne
  rw [nothing, List.append_nil]
  rfl

theorem filter_list {key : String} {listing : Listing} {word : Option String} {role : Role}
    {span : Span} {items : List Json} {index : Nat}
    (holds : Holds members key (.array span items)) (isItem : items[index]? = some value)
    (inside : ((path.member key).index index).Inside place) :
    (Field.defects source.text (viewed source members path position)
        (.list key listing word role)).filter (·.path = place) =
      ((view source value).node ((path.member key).index index)).defects.filter
        (·.path = place) := by
  have around : (path.member key).Inside place := (Path.covers_index _ index).inside inside
  have unempty : (if listing = .nonempty ∧ (viewed source members path position).listed key role =
      [] then [⟨position, path.member key, .noVariables⟩] else [] : List Defect).filter
        (·.path = place) = [] := by
    refine filter_path_eq_nil fun defect mem => ?_
    split at mem
    · rw [List.mem_singleton.mp mem]
      exact around.ne
    · cases mem
  have first : (view source value, index) ∈ (items.map (view source)).zipIdx :=
    mem_zipIdx_map_view.mpr ⟨value, isItem, rfl⟩
  rw [Field.defects, List.filter_append, Object.listDefects, items_of_holds holds, path_slot]
  refine (congrArg₂ _ ?_ unempty).trans (List.append_nil _)
  rw [Reading.defects_pure, List.nil_append, Reading.value_pure,
    filter_flatMap_of_pairwise (pairwise_zipIdx _ 0) first ?_]
  · -- what the list notes of the item is noted at the item, and not inside it
    have nothing : (Object.itemNotes (viewed source members path position) word role
        ((path.member key).index index)
        ((view source value).node ((path.member key).index index)).value).filter
          (·.path = place) = [] :=
      filter_path_eq_nil fun defect mem => path_of_mem_itemNotes mem ▸ inside.ne
    rw [Object.itemDefects, List.filter_append]
    exact (congrArg _ nothing).trans (List.append_nil _)
  · -- what is noted of another item is noted behind another position
    rintro ⟨otherView, other⟩ isOther different defect mem same
    obtain ⟨otherValue, -, rfl⟩ := mem_zipIdx_map_view.mp isOther
    have covers : ((path.member key).index other).Covers defect.path := by
      obtain inItem | noted := List.mem_append.mp mem
      · exact covers_of_mem_defects inItem
      · exact path_of_mem_itemNotes noted ▸ .refl _
    rw [of_decide_eq_true same] at covers
    have samePosition := inside.1.index_unique covers
    exact different.elim (fun ne => ne samePosition) (fun ne => ne samePosition.symm)

theorem filter_comments {span : Span} {held : List (String × Json)} {name : String}
    (holds : Holds members "comments" (.object span held)) (isKey : name ∈ commentKeys)
    (stands : Stands held value [name] name)
    (inside : ((path.member "comments").member name).Inside place) :
    (Field.defects source.text (viewed source members path position) .comments).filter
        (·.path = place) =
      ((view source value).node ((path.member "comments").member name)).defects.filter
        (·.path = place) := by
  have distinct : commentKeys.Pairwise (· ≠ ·) := by decide
  rw [Field.defects, defects_comments_of_holds holds, filter_flatMap_of_pairwise distinct isKey ?_,
    filter_child stands inside]
  intro other _ different defect mem same
  obtain ⟨key, isKey, covers⟩ := covers_of_mem_field mem
  rw [of_decide_eq_true same, List.mem_singleton.mp isKey] at covers
  have sameName := inside.1.member_unique covers
  exact different.elim (fun ne => ne sameName) (fun ne => ne sameName.symm)

/-- What a field notes inside a value that it is read from is noted of that value. -/
theorem filter_of_reads {field : Field} (reads : field.Reads members path inner value)
    (inside : inner.Inside place) :
    (field.defects source.text (viewed source members path position)).filter (·.path = place) =
      ((view source value).node inner).defects.filter (·.path = place) := by
  cases reads with
  | child stands => exact filter_child stands inside
  | item holds isItem => exact filter_list holds isItem inside
  | comment holds isKey stands => exact filter_comments holds isKey stands inside

/-- What is noted under a member is noted by the field that is read from it. -/
theorem perm_filter_of_tags {span : Span} {kind : Kind} (tags : Tags members kind.tag)
    (known : kind ∈ Kind.all) {field : Field}
    (isField : field ∈ kind.fields (listsHandlers members)) {key : String}
    (isKey : key ∈ field.keys) (covers : (path.member key).Covers place) :
    (((view source (.object span members)).node path).defects.filter (·.path = place)).Perm
      ((field.defects source.text
        (viewed source members path (placeOf source members path))).filter (·.path = place)) := by
  obtain ⟨node, defects, -, noted, reads⟩ := reads_of_tags tags known
  -- the location is no member of a field
  have unlocated : (readPosition source (viewMembers source members) path).defects.filter
      (·.path = place) = [] := by
    refine filter_path_eq_nil fun defect mem same => ?_
    obtain ⟨fault, rfl⟩ := eq_of_mem_readPosition mem
    rw [← same] at covers
    exact location_not_mem_keys known isField (covers.member_unique (.refl _) ▸ isKey)
  have perm := reads.fields.perm.filter (·.path = place)
  rw [listsHandlers_viewed, filter_flatMap_of_pairwise (pairwise_keys known _) isField ?_] at perm
  · rwa [noted, List.filter_append, unlocated, List.nil_append]
  · intro other isOther different defect mem same
    obtain ⟨key', isKey', covers'⟩ := covers_of_mem_field mem
    rw [of_decide_eq_true same] at covers'
    obtain rfl := covers.member_unique covers'
    exact different.elim (fun apart => apart key isKey isKey') (fun apart => apart key isKey' isKey)

/-- What is noted inside a value that is led to is noted of that value. -/
theorem Leads.perm_filter {json : Json} (leads : Leads path json inner value)
    (inside : inner.Inside place) :
    (((view source json).node path).defects.filter (·.path = place)).Perm
      (((view source value).node inner).defects.filter (·.path = place)) := by
  cases leads with
  | mk tags known isField reads =>
    obtain ⟨key, isKey, covers⟩ := covers_of_reads reads
    exact (perm_filter_of_tags tags known isField isKey (covers.trans inside.1)).trans
      (.of_eq (filter_of_reads reads inside))

/-- What is noted inside a reached value is noted of that value, as often as in the document. -/
theorem Reached.perm_filter {root : Json} (reached : Reached root path value)
    (inside : path.Inside place) :
    (((view source root).node .root).defects.filter (·.path = place)).Perm
      (((view source value).node path).defects.filter (·.path = place)) := by
  induction reached with
  | root => exact .refl _
  | step _ leads ih => exact (ih (leads.covers.inside inside)).trans (leads.perm_filter inside)

end Filter

/-! ### The nodes of a clean document -/

section Within

variable {source : Source} {members : List (String × Json)} {path place : Path}
  {position : Position} {value : Json} {node : Node}

/-- What is read from a value is the node in a slot. -/
theorem mem_nodes_of_child {key name : String} {aliases : List String} {need : Need} {role : Role}
    (stands : Stands members value (key :: aliases) name)
    (clean : Field.defects source.text (viewed source members path position)
      (.child key aliases need role) = [])
    (read : ((view source value).node (path.member name)).value = some node) :
    (((viewed source members path position).slot key aliases).taken role) = some node := by
  rw [Field.defects, slot_of_stands stands, Object.childDefects, Object.childNotes,
    List.append_eq_nil_iff, List.append_eq_nil_iff] at clean
  rw [slot_of_stands stands, Slot.taken, filter_admits clean.2.1]
  exact read

/-- The node that is read from a value is a node of the part that the field gives. -/
theorem mem_nodes_of_reads {field : Field} (reads : field.Reads members path place value)
    (clean : field.defects source.text (viewed source members path position) = [])
    (read : ((view source value).node place).value = some node) :
    node ∈ (field.part source.text (viewed source members path position)).nodes := by
  cases reads with
  | child stands =>
    rw [Field.part, Component.nodes, mem_nodes_of_child stands clean read]
    exact List.mem_singleton_self node
  | @item key listing word role span items index _ holds isItem =>
    have isView : (view source value, index) ∈ (items.map (view source)).zipIdx :=
      mem_zipIdx_map_view.mpr ⟨value, isItem, rfl⟩
    rw [Field.defects, Object.listDefects, items_of_holds holds, path_slot] at clean
    have unnoted := List.flatMap_eq_nil_iff.mp
      (List.append_eq_nil_iff.mp (List.append_eq_nil_iff.mp clean).1).2 _ isView
    rw [Object.itemDefects, Object.itemNotes, List.append_eq_nil_iff,
      List.append_eq_nil_iff] at unnoted
    have listed : node ∈ (viewed source members path position).listed key role := by
      rw [Object.listed, items_of_holds holds, path_slot]
      exact List.mem_filterMap.mpr ⟨_, isView, (filter_admits unnoted.2.2).trans read⟩
    exact List.mem_filterMap.mpr ⟨some node, List.mem_map_of_mem listed, rfl⟩
  | @comment span held name _ holds isKey stands =>
    rw [Field.defects, defects_comments_of_holds holds] at clean
    have taken := mem_nodes_of_child stands (List.flatMap_eq_nil_iff.mp clean name isKey) read
    rw [← map_value_optional fits_comment] at taken
    obtain ⟨comment, isComment, rfl⟩ := Option.map_eq_some_iff.mp taken
    rw [Field.part, Component.nodes, named_comments_of_holds holds, List.map_map]
    refine List.mem_map_of_mem (List.mem_filterMap.mpr ⟨some comment, ?_, rfl⟩)
    exact List.mem_map.mpr ⟨name, isKey, isComment⟩

/-- The node that is read from a reached value is a node of the tree, if nothing is noted. -/
theorem Reached.within {root : Json} {file : Node} (reached : Reached root path value)
    (clean : ((view source root).node .root).defects = [])
    (whole : ((view source root).node .root).value = some file)
    (read : ((view source value).node path).value = some node) : file.Within node := by
  induction reached generalizing node with
  | root =>
    obtain rfl := Option.some_inj.mp (whole.symm.trans read)
    exact .root
  | step outer leads ih =>
    cases leads with
    | mk tags known isField reads =>
      obtain ⟨outerNode, defects, found, noted, fields⟩ := reads_of_tags tags known
      have unnoted := List.flatMap_eq_nil_iff.mp (List.eq_nil_iff_forall_not_mem.mpr
        fun defect mem => List.not_mem_nil (clean ▸ outer.mem_defects
          (noted ▸ List.mem_append_right _ (fields.fields.perm.mem_iff.mpr mem))))
      have parts := fields.fields.parts_eq
      rw [listsHandlers_viewed] at unnoted parts
      exact (ih found).child (parts ▸ List.mem_map_of_mem isField)
        (mem_nodes_of_reads reads (unnoted _ isField) read)

end Within

end PascalCompiler.Document
