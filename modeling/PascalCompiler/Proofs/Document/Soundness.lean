import PascalCompiler.Document.Decode
import PascalCompiler.Proofs.Document.Fields

/-!
# Documents that are accepted

Whatever is read from a document without a defect is well-formed. Some readers
return nothing and leave it to the reader of a part to note the defect, so the
argument runs over readings as a whole: as long as no defect has been met, every
node that was read is well-formed, and only null was read as nothing.

## Main definitions

* `Document.Reading.Clean`: no defect was met
* `Document.View.Sound`: a view, with all its parts, is read soundly
* `Component.Sound`: a part of a well-formed node

## Main results

* `Document.field_sound`: what a field gives without a defect is sound
* `Document.view_sound`: so is the view of every value
* `Document.wellFormed_of_decode`: a file that is read is well-formed
-/

namespace PascalCompiler

/-- Nothing is missing from the part, and its nodes are well-formed. -/
def Component.Sound (file : String) (part : Component) : Prop :=
  part.Complete ∧ ∀ child ∈ part.nodes, child.WellFormed file

theorem Node.WellFormed.of_parts {file : String} {node : Node} (place : node.position.IsIn file)
    (unscoped : node.scope = none) (parts : ∀ part ∈ node.parts, part.Sound file) :
    node.WellFormed file :=
  .mk place unscoped (fun part mem => (parts part mem).1) fun part mem => (parts part mem).2

namespace Document

/-! ### Readings without defects -/

namespace Reading

variable {α β : Type}

/-- No defect was met. -/
def Clean (reading : Reading α) : Prop :=
  reading.defects = []

@[simp] theorem clean_pure (a : α) : (pure a : Reading α).Clean := rfl

@[simp] theorem clean_bind (reading : Reading α) (next : α → Reading β) :
    (reading >>= next).Clean ↔ reading.Clean ∧ (next reading.value).Clean :=
  List.append_eq_nil_iff

@[simp] theorem not_clean_report (position : Position) (path : Path) (cause : Cause) :
    ¬ (report position path cause).Clean :=
  List.cons_ne_nil _ _

end Reading

@[simp] theorem not_clean_objectReport (object : Object) (path : Path) (cause : Cause) :
    ¬ (object.report path cause).Clean :=
  List.cons_ne_nil _ _

/-! ### Views -/

/-- As long as no defect is met, what the view is read as is well-formed, and only
null is read as nothing. -/
def View.NodeSound (file : String) (view : View) : Prop :=
  ∀ path, (view.node path).Clean →
    (∃ node, (view.node path).value = some node ∧ node.WellFormed file) ∨
      ((view.node path).value = none ∧ view.json = .null)

/-- The view and all its items and members are read soundly. -/
inductive View.Sound (file : String) : View → Prop where
  | mk {view : View} (node : view.NodeSound file) (items : ∀ item ∈ view.items, Sound file item)
      (members : ∀ member ∈ view.members, Sound file member.2) : Sound file view

/-- The members of the object are read soundly, and its position is in the file. -/
structure Object.Sound (file : String) (object : Object) : Prop where
  members : ∀ member ∈ object.members, member.2.Sound file
  place : object.position.IsIn file

theorem mem_of_lookupLast {α : Type} {name : String} {list : List (String × α)} {value : α}
    (found : lookupLast name list = some value) : (name, value) ∈ list := by
  induction list with
  | nil => cases found
  | cons member rest ih =>
    obtain ⟨key, first⟩ := member
    rw [lookupLast] at found
    cases later : lookupLast name rest with
    | some other =>
      rw [later] at found
      exact List.mem_cons_of_mem _ (ih (later.trans found))
    | none =>
      -- no later member has the name, so this one is the last if it has it
      rw [later] at found
      by_cases same : key = name
      · rw [if_pos same] at found
        obtain rfl := Option.some_inj.mp found
        rw [same]
        exact List.mem_cons_self
      · rw [if_neg same] at found
        cases found

section Slots

variable {file : String} {object : Object} {key : String} {aliases : List String}

/-- What is in a slot is read soundly and is not null. -/
theorem sound_of_view? (sound : object.Sound file) {view : View}
    (found : (object.slot key aliases).view? = some view) :
    view.Sound file ∧ view.json.isNull = false := by
  rw [Object.slot] at found
  split at found
  · next name other first =>
    obtain rfl := Option.some_inj.mp found
    obtain ⟨n, -, here⟩ := List.exists_of_findSome?_eq_some first
    obtain ⟨v, inMembers, same⟩ := Option.map_eq_some_iff.mp here
    obtain ⟨rfl, rfl⟩ := Prod.mk.inj same
    obtain ⟨last, there⟩ := Option.filter_eq_some_iff.mp inMembers
    exact ⟨sound.members _ (mem_of_lookupLast last), by simpa using there⟩
  · cases found

/-- A slot without defects is empty or holds a well-formed node. -/
theorem slot_sound (sound : object.Sound file) (clean : (object.slot key aliases).node.Clean) :
    ((object.slot key aliases).view? = none ∧ (object.slot key aliases).node.value = none) ∨
      ∃ node, (object.slot key aliases).node.value = some node ∧ node.WellFormed file := by
  cases found : (object.slot key aliases).view? with
  | none =>
    left
    rw [Slot.node, found]
    exact ⟨rfl, rfl⟩
  | some view =>
    right
    obtain ⟨⟨node, -, -⟩, there⟩ := sound_of_view? sound found
    rw [Slot.node, found] at clean ⊢
    -- the view is not null, as a slot skips null members
    obtain read | ⟨-, null⟩ := node _ clean
    · exact read
    · rw [null] at there
      cases there

end Slots

/-! ### Fields -/

section Fields

variable {file : String} {document : Bytes} {object : Object} {key : String}
  {aliases : List String} {role : Role}

/-- A node that is not noted for its role plays it. -/
theorem filter_admits {path : Path} {value : Option Node} (clean : miscast role path value = []) :
    value.filter role.admits = value := by
  cases value with
  | none => rfl
  | some node =>
    rw [miscast, List.map_eq_nil_iff, List.filter_eq_nil_iff] at clean
    have plays := clean node (List.mem_singleton_self node)
    exact Option.filter_eq_some_iff.mpr ⟨rfl, by simpa using plays⟩

theorem child_sound (sound : object.Sound file) {need : Need}
    (clean : object.childDefects (object.slot key aliases) need role = []) :
    (Component.child key aliases need.isNeeded
      ((object.slot key aliases).taken role)).Sound file := by
  rw [Object.childDefects, Object.childNotes, List.append_eq_nil_iff,
    List.append_eq_nil_iff] at clean
  obtain ⟨read, taken, found⟩ := clean
  have missed : need.missed (object.slot key aliases) role = none := by
    rw [Object.missing, List.map_eq_nil_iff] at found
    exact Option.toList_eq_nil_iff.mp found
  have same : (object.slot key aliases).taken role = (object.slot key aliases).node.value :=
    filter_admits taken
  obtain ⟨absent, nothing⟩ | ⟨child, there, wellFormed⟩ := slot_sound sound read
  · -- nothing is there, which is noted unless the node is never missed
    rw [same, nothing]
    refine ⟨fun needed => ?_, List.forall_mem_nil _⟩
    cases need with
    | never => cases needed
    | absent word => simp [Need.missed, absent] at missed
    | unread word => simp [Need.missed, nothing] at missed
    | untaken word => simp [Need.missed, same, nothing] at missed
  · rw [same, there]
    exact ⟨fun _ => rfl, List.forall_mem_singleton.mpr wellFormed⟩

/-- The items of a slot that is read without defects are read soundly. -/
theorem items_sound (sound : object.Sound file)
    (clean : (Object.items (object.slot key aliases)).Clean) :
    ∀ view ∈ (Object.items (object.slot key aliases)).value, view.Sound file := by
  cases found : (object.slot key aliases).view? with
  | none => simp [Object.items, found]
  | some view =>
    obtain ⟨⟨-, items, -⟩, -⟩ := sound_of_view? sound found
    cases shape : view.json with
    | array => simpa [Object.items, found, shape] using items
    | _ =>
      -- what is no array is a defect
      simp [Object.items, found, shape] at clean

theorem listed_sound (sound : object.Sound file) {word : Option String}
    (clean : object.listDefects key word role = []) :
    ∀ node ∈ object.listed key role, node.WellFormed file := by
  rw [Object.listDefects, List.append_eq_nil_iff, List.flatMap_eq_nil_iff] at clean
  intro node mem
  obtain ⟨item, isItem, read⟩ := List.mem_filterMap.mp mem
  obtain ⟨isSound, -, -⟩ := items_sound sound clean.1 _ (List.fst_mem_of_mem_zipIdx isItem)
  have noted := clean.2 item isItem
  rw [Object.itemDefects, List.append_eq_nil_iff] at noted
  obtain ⟨value, -⟩ := Option.filter_eq_some_iff.mp read
  obtain ⟨child, found, wellFormed⟩ | ⟨nothing, -⟩ := isSound _ noted.1
  · obtain rfl := Option.some_inj.mp (found.symm.trans value)
    exact wellFormed
  · rw [nothing] at value
    cases value

theorem integer_sound (clean : (object.integer document key).Clean) :
    (Component.integer key (object.integer document key).value).Sound file := by
  refine ⟨?_, List.forall_mem_nil _⟩
  rw [Object.integer] at clean ⊢
  cases found : (object.slot key []).view? with
  | none => simp [found] at clean
  | some view =>
    simp only [found] at clean ⊢
    cases read : Object.integer? view.json with
    | none => simp [read] at clean
    | some value =>
      have fits : Numeral.fitsInt64 value := by
        cases shape : view.json with
        | number literal =>
          rw [shape] at read
          exact (Option.filter_eq_some_iff.mp read).2
        | string span literal =>
          rw [shape] at read
          exact (Option.filter_eq_some_iff.mp read).2
        | _ => rw [shape] at read; cases read
      exact fits

/-- The comments of a program are well-formed if each of them is. -/
theorem comments_of_named {value : ProgramComments}
    (each : ∀ entry ∈ value.named, (Component.optional entry.1 .comment entry.2).Sound file) :
    (Component.comments value).Sound file := by
  refine ⟨trivial, fun child mem => ?_⟩
  obtain ⟨comment, listed, rfl⟩ := List.mem_map.mp mem
  obtain ⟨present, among, rfl⟩ := List.mem_filterMap.mp listed
  obtain ⟨entry, isNamed, there⟩ := List.mem_map.mp among
  refine (each entry isNamed).2 _ (Option.mem_toList.mpr ?_)
  rw [there]
  rfl

theorem comment_sound (sound : object.Sound file) (clean : (object.comment? key).Clean) :
    (Component.optional key .comment (object.comment? key).value).Sound file := by
  have value : (object.comment? key).value.map .comment =
      (object.slot key []).taken (.kind .comment) := map_value_optional fits_comment
  have noted : (object.comment? key).defects =
      object.childDefects (object.slot key []) .never (.kind .comment) :=
    defects_optional fits_comment
  rw [Component.optional, value]
  exact child_sound sound (noted.symm.trans clean)

theorem comments_sound (sound : object.Sound file) (clean : object.comments.Clean) :
    (Component.comments object.comments.value).Sound file := by
  have nothing : (Component.comments {}).Sound file :=
    ⟨trivial, by simp [Component.nodes, ProgramComments.named, List.reduceOption]⟩
  cases found : (object.slot "comments" []).view? with
  | none => simpa [Object.comments, found] using nothing
  | some view =>
    obtain ⟨⟨-, -, members⟩, -⟩ := sound_of_view? sound found
    have inner : (Object.mk view.members (object.slot "comments" []).path object.position).Sound
        file := ⟨members, sound.place⟩
    cases shape : view.json with
    | object =>
      simp only [Object.comments, found, shape, Reading.clean_bind, Reading.value_bind,
        Reading.value_pure] at clean ⊢
      obtain ⟨pre, uses, final, post, -⟩ := clean
      refine comments_of_named ?_
      simp only [ProgramComments.named, List.forall_mem_cons]
      exact ⟨comment_sound inner pre, comment_sound inner uses, comment_sound inner final,
        comment_sound inner post, List.forall_mem_nil _⟩
    | _ => simp [Object.comments, found, shape] at clean

/-- What a field gives without a defect is sound. -/
theorem field_sound (sound : object.Sound file) {field : Field}
    (clean : field.defects document object = []) : (field.part document object).Sound file := by
  cases field with
  | child key aliases need role => exact child_sound sound clean
  | list key listing word role =>
    rw [Field.defects, List.append_eq_nil_iff] at clean
    refine ⟨⟨by simp, fun nonempty none => ?_⟩, fun child mem => ?_⟩
    · rw [if_pos ⟨nonempty, List.map_eq_nil_iff.mp none⟩] at clean
      cases clean.2
    · refine listed_sound sound clean.1 child ?_
      simpa [Field.part, Component.nodes, List.reduceOption] using mem
  | text => exact ⟨trivial, List.forall_mem_nil _⟩
  | integer key => exact integer_sound clean
  | comments => exact comments_sound sound clean

end Fields

/-! ### Positions -/

/-- The coordinates are 64-bit integers. -/
def Coordinates.Fit (coordinates : Coordinates) : Prop :=
  Numeral.fitsInt64 coordinates.offset ∧ Numeral.fitsInt64 coordinates.line ∧
    Numeral.fitsInt64 coordinates.column

theorem set?_fit {old new : Coordinates} {name : String} {value : Int} (fit : old.Fit)
    (fits : Numeral.fitsInt64 value) (set : old.set? name value = some new) : new.Fit := by
  obtain ⟨offset, line, column⟩ := fit
  rw [Coordinates.set?] at set
  split at set
  · exact Option.some_inj.mp set ▸ ⟨fits, line, column⟩
  split at set
  · exact Option.some_inj.mp set ▸ ⟨offset, fits, column⟩
  split at set
  · exact Option.some_inj.mp set ▸ ⟨offset, line, fits⟩
  · cases set

theorem fits_of_integer? {json : Json} {value : Int}
    (read : Coordinates.integer? json = some value) : Numeral.fitsInt64 value := by
  cases json with
  | number literal => exact (Option.filter_eq_some_iff.mp read).2
  | _ => cases read

theorem ofMembers_fit {start : String} {old new : Coordinates} {members : List (String × Json)}
    (fit : old.Fit) (read : Coordinates.ofMembers start old members = .ok new) : new.Fit := by
  induction members generalizing old with
  | nil => exact Except.ok.inj read ▸ fit
  | cons member rest ih =>
    obtain ⟨name, value⟩ := member
    rw [Coordinates.ofMembers] at read
    split at read
    · exact ih fit read
    · split at read
      · cases read
      · next n found =>
        -- a member that names no coordinate is skipped
        refine ih ?_ read
        cases set : old.set? name n with
        | none => exact fit
        | some next => exact set?_fit fit (fits_of_integer? found) set

theorem ofLocation_fit {old new : Coordinates} {members : List (String × Json)}
    (fit : old.Fit) (read : Coordinates.ofLocation old members = .ok new) : new.Fit := by
  induction members generalizing old with
  | nil => exact Except.ok.inj read ▸ fit
  | cons member rest ih =>
    obtain ⟨name, value⟩ := member
    rw [Coordinates.ofLocation.eq_def] at read
    dsimp only at read
    split at read
    · exact ih fit read
    · split at read
      · next _ inner _ =>
        cases next : Coordinates.ofMembers name old inner with
        | error fault =>
          rw [next] at read
          cases read
        | ok coordinates =>
          rw [next] at read
          exact ih (ofMembers_fit fit next) read
      · cases read

theorem readPosition_sound {file : String} {text : Bytes} {members : List (String × View)}
    {path : Path} (clean : (readPosition ⟨file, text⟩ members path).Clean) :
    (readPosition ⟨file, text⟩ members path).value.IsIn file := by
  rw [readPosition] at clean ⊢
  split
  · exact .inl rfl
  · next view found =>
    rw [found] at clean
    dsimp only at clean
    cases read : Coordinates.ofJson view.json with
    | error fault => simp [read] at clean
    | ok start =>
      have fit : start.Fit := by
        cases shape : view.json with
        | object span members =>
          rw [shape] at read
          exact ofLocation_fit ⟨by decide, by decide, by decide⟩ read
        | _ =>
          rw [shape] at read
          cases read
      exact .inr ⟨rfl, fit⟩

/-! ### Values -/

theorem mem_all_of_ofTag? {tag : String} {kind : Kind} (found : Kind.ofTag? tag = some kind) :
    kind ∈ Kind.all :=
  List.mem_of_find?_eq_some found

/-- A node that is read without a defect is well-formed, since its parts are those of fields. -/
theorem readKind_sound {file : String} {source : Source} {object : Object}
    (sound : object.Sound file) {kind : Kind} (known : kind ∈ Kind.all)
    (clean : (readKind source object kind).Clean) :
    ∃ node, (readKind source object kind).value = some node ∧ node.WellFormed file := by
  obtain ⟨node, read, reads⟩ := readKind_fields source object known
  rw [clean] at reads
  refine ⟨node, read, .of_parts (reads.position_eq ▸ sound.place) reads.scope_eq ?_⟩
  intro part mem
  rw [show node.parts = _ from reads.fields.parts_eq] at mem
  obtain ⟨field, isField, rfl⟩ := List.mem_map.mp mem
  have noted := reads.fields.perm.symm.eq_nil
  exact field_sound sound (List.flatMap_eq_nil_iff.mp noted field isField)

/-- An object that is read without a defect spells a well-formed node. -/
theorem readObject_sound {file : String} {text : Bytes} {members : List (String × View)}
    (sound : ∀ member ∈ members, member.2.Sound file) {path : Path}
    (clean : (readObject ⟨file, text⟩ members path).Clean) :
    ∃ node, (readObject ⟨file, text⟩ members path).value = some node ∧ node.WellFormed file := by
  rw [readObject, Reading.clean_bind] at clean
  rw [readObject, Reading.value_bind]
  obtain ⟨place, clean⟩ := clean
  cases tagged : tag? members with
  | none => simp [tagged] at clean
  | some tag =>
    simp only [tagged] at clean ⊢
    cases found : Kind.ofTag? tag with
    | none => simp [found] at clean
    | some kind =>
      simp only [found] at clean ⊢
      have object : (Object.mk members path
          (readPosition ⟨file, text⟩ members path).value).Sound file :=
        ⟨sound, readPosition_sound place⟩
      exact readKind_sound object (mem_all_of_ofTag? found) clean

/-- A value that is no object is read as nothing, and only null without a defect. -/
theorem sound_of_readOther {file : String} {json : Json} {items : List View}
    (sound : ∀ item ∈ items, item.Sound file) :
    View.Sound file ⟨json, readOther json, items, []⟩ := by
  refine .mk (fun path clean => ?_) sound fun _ mem => nomatch mem
  cases json with
  | null => exact .inr ⟨rfl, rfl⟩
  | _ => simp [readOther, Json.isNull] at clean

mutual

/-- Every value is read soundly. -/
theorem view_sound (file : String) (text : Bytes) :
    ∀ json : Json, (view ⟨file, text⟩ json).Sound file
  | .object _ members =>
    .mk (fun _ clean => .inl (readObject_sound (viewMembers_sound file text members) clean))
      (fun _ mem => nomatch mem) (viewMembers_sound file text members)
  | .array _ items => sound_of_readOther (viewItems_sound file text items)
  | .null | .bool _ | .number _ | .string .. => sound_of_readOther fun _ mem => nomatch mem

theorem viewItems_sound (file : String) (text : Bytes) :
    ∀ items : List Json, ∀ item ∈ viewItems ⟨file, text⟩ items, item.Sound file
  | [] => fun _ mem => nomatch mem
  | json :: rest =>
    List.forall_mem_cons.mpr ⟨view_sound file text json, viewItems_sound file text rest⟩

theorem viewMembers_sound (file : String) (text : Bytes) :
    ∀ members : List (String × Json), ∀ member ∈ viewMembers ⟨file, text⟩ members,
      member.2.Sound file
  | [] => fun _ mem => nomatch mem
  | (_, json) :: rest =>
    List.forall_mem_cons.mpr ⟨view_sound file text json, viewMembers_sound file text rest⟩

end

/-! ### Files -/

/-- Of the nodes, only programs and units are files. -/
theorem eq_node_of_fileOf {value : Option Node} {file : File} (read : fileOf value = .ok file) :
    value = some file.node := by
  cases value with
  | none => cases read
  | some node =>
    cases node with
    | program value =>
      obtain rfl := Except.ok.inj read
      rfl
    | unit value =>
      obtain rfl := Except.ok.inj read
      rfl
    | _ => cases read

/-- A file is read from a JSON text without a defect. -/
theorem reading_of_decode {name : String} {text : Bytes} {file : File}
    (read : decode name text = .ok file) :
    ∃ json, Json.parse? text = some json ∧ ((view ⟨name, text⟩ json).node .root).Clean ∧
      ((view ⟨name, text⟩ json).node .root).value = some file.node := by
  rw [decode] at read
  split at read
  · cases read
  split at read
  · cases read
  · next json parsed =>
    dsimp only at read
    split at read
    · next clean =>
      exact ⟨json, parsed, List.isEmpty_iff.mp clean, eq_node_of_fileOf read⟩
    · cases read

/-- A file that is read from a document is well-formed. -/
theorem wellFormed_of_decode {name : String} {text : Bytes} {file : File}
    (read : decode name text = .ok file) : file.node.WellFormed name := by
  obtain ⟨json, -, clean, value⟩ := reading_of_decode read
  obtain ⟨isSound, -, -⟩ := view_sound name text json
  obtain ⟨node, found, wellFormed⟩ | ⟨nothing, -⟩ := isSound .root clean
  · obtain rfl := Option.some_inj.mp (found.symm.trans value)
    exact wellFormed
  · cases nothing.symm.trans value

end Document

end PascalCompiler
