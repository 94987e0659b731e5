import PascalCompiler.Proofs.Document.Reached
import PascalCompiler.Proofs.Text.Reading

/-!
# No defect hides another

Every object that is read as a node and has no tag, or a tag that belongs to no kind of node, is
reported, whatever else is wrong with the document. The message gives the path of the object, and
no two values that are read have the same path: the names of fields have no dots and brackets, so
a path can be read back from the way it is written.

## Main definitions

* `Document.whereabouts`: where an object was found, as messages say it
* `Document.Reports`: a message is among those that say why a document is refused
* `Document.Path.Simple`: the names on a path can be told apart from its punctuation

## Main results

* `Document.Path.render_injective`: simple paths can be read back
* `Document.tag_faults_reported`: every fault of a tag is reported, and at a place of its own
-/

namespace PascalCompiler.Document

/-! ### Paths as they are written -/

/-- Can the name stand in a path? -/
def isSimple (name : String) : Bool :=
  name.toList.all fun c => c != '.' && c != '[' && c != ']'

/-- All names on the path can stand in it. -/
inductive Path.Simple : Path → Prop where
  | root : Simple .root
  | member {path : Path} {name : String} (front : path.Simple) (simple : isSimple name) :
      Simple (path.member name)
  | index {path : Path} {position : Nat} (front : path.Simple) : Simple (path.index position)

theorem not_mem_of_isSimple {name : String} (simple : isSimple name) {mark : Char}
    (isMark : mark ∈ ['.', '[', ']']) : mark ∉ name.toList := by
  intro mem
  have other := List.all_eq_true.mp simple mark mem
  simp only [List.mem_cons, List.not_mem_nil, or_false] at isMark
  rcases isMark with rfl | rfl | rfl <;> cases other

namespace Path

theorem toList_member (path : Path) (name : String) :
    (path.member name).render.toList = path.render.toList ++ '.' :: name.toList := by
  simp [render]

theorem toList_index (path : Path) (position : Nat) :
    (path.index position).render.toList =
      (path.render.toList ++ '[' :: (Numeral.decimal position).toList) ++ [']'] := by
  simp [render]

theorem toList_render_ne_nil (path : Path) : path.render.toList ≠ [] := by
  cases path with
  | root => decide
  | member path name =>
    rw [toList_member]
    exact List.append_ne_nil_of_right_ne_nil _ (List.cons_ne_nil _ _)
  | index path position =>
    rw [toList_index]
    exact List.append_ne_nil_of_right_ne_nil _ (List.cons_ne_nil _ _)

/-- Behind the root there is always more to write. -/
theorem root_ne_append {path : Path} {mark : Char} {rest : List Char} :
    Path.root.render.toList ≠ path.render.toList ++ mark :: rest := by
  intro same
  have length := congrArg List.length same
  have filled := List.length_pos_iff.mpr path.toList_render_ne_nil
  rw [List.length_append, List.length_cons] at length
  have one : Path.root.render.toList.length = 1 := rfl
  omega

/-- A name has no bracket at its end. -/
theorem member_ne_index {path path' : Path} {name : String} {position : Nat}
    (simple : isSimple name) : (path.member name).render ≠ (path'.index position).render := by
  intro same
  have lists := congrArg String.toList same
  rw [toList_member, toList_index] at lists
  have last := congrArg List.getLast? lists
  rw [List.getLast?_concat, List.getLast?_append, List.getLast?_cons, Option.some_or,
    ← List.getLast?_cons] at last
  have mem : ']' ∈ '.' :: name.toList := List.mem_of_getLast? last
  rcases List.mem_cons.mp mem with wrong | mem
  · cases wrong
  · exact not_mem_of_isSimple simple (by decide) mem

/-- Simple paths can be read back from the way they are written. -/
theorem render_injective {path path' : Path} (simple : path.Simple) (simple' : path'.Simple)
    (same : path.render = path'.render) : path = path' := by
  -- the last step of a path is read back from its last mark, which tells the two kinds apart
  induction simple generalizing path' with
  | root =>
    cases simple' with
    | root => rfl
    | member _ _ =>
      have lists := congrArg String.toList same
      rw [toList_member] at lists
      exact absurd lists root_ne_append
    | index _ =>
      have lists := congrArg String.toList same
      rw [toList_index, List.append_assoc] at lists
      exact absurd lists root_ne_append
  | @member path name _ simple ih =>
    cases simple' with
    | root =>
      have lists := congrArg String.toList same
      rw [toList_member] at lists
      exact absurd lists.symm root_ne_append
    | member front' simple' =>
      have lists := congrArg String.toList same
      rw [toList_member, toList_member] at lists
      obtain ⟨front, names⟩ := append_cons_injective_last
        (not_mem_of_isSimple simple (by decide)) (not_mem_of_isSimple simple' (by decide)) lists
      rw [ih front' (String.toList_injective front), String.toList_injective names]
    | index _ => exact absurd same (member_ne_index simple)
  | @index path position _ ih =>
    cases simple' with
    | root =>
      have lists := congrArg String.toList same
      rw [toList_index, List.append_assoc] at lists
      exact absurd lists.symm root_ne_append
    | member _ simple' => exact absurd same.symm (member_ne_index simple')
    | index front' =>
      have lists := congrArg String.toList same
      rw [toList_index, toList_index] at lists
      obtain ⟨front, numerals⟩ := append_cons_injective_last
        (Numeral.not_mem_decimal _ rfl (by decide)) (Numeral.not_mem_decimal _ rfl (by decide))
        (List.append_cancel_right lists)
      have positions := Numeral.decimal_injective (String.toList_injective numerals)
      rw [ih front' (String.toList_injective front), Int.ofNat_inj.mp positions]

end Path

/-! ### Paths of values that are read -/

/-- The names under which a field is read. -/
def Field.names : Field → List String
  | .child key aliases _ _ | .text key aliases _ => key :: aliases
  | .list key _ _ _ | .integer key => [key]
  | .comments => "comments" :: commentKeys

theorem isSimple_of_mem_names {kind : Kind} (known : kind ∈ Kind.all) {listed : Bool}
    {field : Field} (isField : field ∈ kind.fields listed) :
    ∀ name ∈ field.names, isSimple name := by
  have table : (Kind.all.all fun kind => (kind.fields true ++ kind.fields false).all
      fun field => field.names.all isSimple) = true := by decide +kernel
  exact List.all_eq_true.mp (Kind.check_of_mem_fields table known isField)

theorem Reached.simple {root value : Json} {path : Path} (reached : Reached root path value) :
    path.Simple := by
  induction reached with
  | root => exact .root
  | step _ leads ih =>
    cases leads with
    | mk tags known isField reads =>
      have simple := isSimple_of_mem_names known isField
      cases reads with
      | child stands => exact .member ih (simple _ stands.mem)
      | item holds isItem => exact .index (.member ih (simple _ List.mem_cons_self))
      | comment holds isKey stands =>
        exact .member (.member ih (simple _ List.mem_cons_self))
          (simple _ (List.mem_cons_of_mem _ isKey))

/-! ### Messages -/

/-- Where an object was found: the place that its location gives, if that is valid, or else the
document. -/
def whereabouts (name : String) (members : List (String × Json)) : String :=
  match (lookupLast "location" members).map Coordinates.ofJson with
  | some (.ok start) =>
    let place : Position := ⟨name, start.offset, start.line, start.column⟩
    if place.isValid then place.render else name
  | _ => name

/-- The document is refused, and the message is among those that say why. -/
def Reports (name : String) (text message : Bytes) : Prop :=
  ∃ list, decode name text = .error (.defects list) ∧
    message ∈ (Error.defects list).messages name

theorem whereabouts_eq (name : String) (text : Bytes) (members : List (String × Json))
    (path : Path) :
    (if (placeOf ⟨name, text⟩ members path).isValid then
      (placeOf ⟨name, text⟩ members path).render else name) = whereabouts name members := by
  rw [placeOf, readPosition, lookupLast_viewMembers, whereabouts]
  cases lookupLast "location" members with
  | none => rfl
  | some location =>
    cases location with
    | null => rfl
    | object span members =>
      cases read : Coordinates.ofJson (.object span members) with
      | ok start =>
        simp only [Option.map_some, Option.filter_some, view_json, Json.isNull, Bool.not_false,
          if_true, read, Reading.value_pure]
      | error fault =>
        simp only [Option.map_some, Option.filter_some, view_json, Json.isNull, Bool.not_false,
          if_true, read, Reading.value_bind, Reading.value_pure]
        rfl
    | _ => rfl

/-- What is noted at a reached object is reported. -/
theorem reports_of_noted {name : String} {text : Bytes} {json : Json} {path : Path} {span : Span}
    {members : List (String × Json)} {defect : Defect} (parsed : Json.parse? text = some json)
    (reached : Reached json path (.object span members))
    (noted : Noted ⟨name, text⟩ path (.object span members) defect) :
    Reports name text (defect.message name) := by
  have mem : defect ∈ ((view ⟨name, text⟩ json).node .root).defects :=
    mem_defects_iff.mpr ⟨path, _, reached, noted⟩
  exact ⟨_, decode_of_reached parsed reached mem, List.mem_map_of_mem mem⟩

open Json.Grammar in
/-- In a document that is a JSON text, every object that is read as a node and has no tag, or one
that belongs to no kind of node, is reported, whatever else is wrong. Messages about two values
that are read name different places. -/
theorem tag_faults_reported (name : String) {text : Bytes} {json : Json}
    (valid : (Text text json ∧ json.depth ≤ 10000) ∨ Json.parse? text = some json) :
    (∀ path span members, Reached json path (.object span members) →
      ((∀ tag, ¬ Tags members tag) →
        Reports name text (.ofString (whereabouts name members ++ ": " ++ path.render ++
          ": missing node type"))) ∧
      ∀ tag, Tags members tag → (∀ kind ∈ Kind.all, kind.tag ≠ tag) →
        Reports name text (.ofString (whereabouts name members ++ ": " ++ path.render ++
          ".type: unknown node type " ++ Quoted.quote tag))) ∧
    ∀ path path' value value', Reached json path value → Reached json path' value' →
      path.render = path'.render → path = path' ∧ value = value' := by
  have parsed : Json.parse? text = some json := by
    obtain ⟨written, shallow⟩ | parsed := valid
    · exact Json.parse?_of_text written shallow
    · exact parsed
  refine ⟨fun path span members reached => ⟨fun untagged => ?_, fun tag tags unknown => ?_⟩, ?_⟩
  · have reported : Reports name text _ := reports_of_noted parsed reached (.noTag untagged)
    have words : ": " ++ "missing node type" = ": missing node type" := rfl
    rw [Defect.message, whereabouts_eq, Cause.message, ← Bytes.ofString_append] at reported
    simp only [String.append_assoc, words] at reported ⊢
    exact reported
  · have reported : Reports name text _ :=
      reports_of_noted parsed reached (.unknownTag tags unknown)
    have words (rest : String) : "." ++ ("type" ++ (": " ++ ("unknown node type " ++ rest))) =
        ".type: unknown node type " ++ rest := by
      simp only [← String.append_assoc]
      rfl
    rw [Defect.message, whereabouts_eq, Cause.message, ← Bytes.ofString_append,
      Path.render] at reported
    simp only [String.append_assoc, words] at reported ⊢
    exact reported
  · intro path path' value value' reached reached' same
    obtain rfl := Path.render_injective reached.simple reached'.simple same
    -- at one path there is one value
    exact ⟨rfl, Option.some_inj.mp (reached.follow_eq.symm.trans reached'.follow_eq)⟩

/-- A program with a declaration that is a number, one without a tag, and statements with a tag
that belongs to no kind of node. -/
def faultyDocument : Bytes :=
  .ofString ("\x7b\"type\":\"program\",\"body\":\x7b\"type\":\"block\",\"declarations\":[5," ++
    "\x7b\"location\":\x7b\"start\":\x7b\"line\":3,\"column\":2\x7d\x7d\x7d],\"statements\":" ++
    "\x7b\"type\":\"oops\"\x7d\x7d\x7d")

theorem reports_of_eq {name : String} {text : Bytes} {message other : String}
    (reported : Reports name text (.ofString message)) (same : message = other) :
    Reports name text (.ofString other) :=
  same ▸ reported

open Json.Grammar in
/-- Neither of the two faults hides the other, nor does the number. -/
theorem tag_faults_reported_faultyDocument :
    (∃ json, Text faultyDocument json ∧ json.depth ≤ 10000) ∧
    Reports "x.json" faultyDocument
      (.ofString "x.json:3:2: $.body.declarations[1]: missing node type") ∧
    Reports "x.json" faultyDocument
      (.ofString "x.json: $.body.statements.type: unknown node type \"oops\"") := by
  have start {n : Nat} : Value n _ _ :=
    .object (.cons (member_compact "line" (by decide) (value_digit '3' rfl (by decide)))
      (.last (member_compact "column" (by decide) (value_digit '2' rfl (by decide)))))
  have untagged {n : Nat} : Value n _ _ :=
    .object (.last (member_compact "location" (by decide)
      (.object (.last (member_compact "start" (by decide) start)))))
  have unknown {n : Nat} : Value n _ _ :=
    .object (.last (member_compact "type" (by decide) (value_plain "oops" (by decide))))
  have block {n : Nat} : Value n _ _ :=
    .object (.cons (member_compact "type" (by decide) (value_plain "block" (by decide)))
      (.cons (member_compact "declarations" (by decide)
        (.array (.cons (padded_compact (value_digit '5' rfl (by decide)))
          (.last (padded_compact untagged)))))
      (.last (member_compact "statements" (by decide) unknown))))
  have written : Text _ _ :=
    padded_compact (.object
      (.cons (member_compact "type" (by decide) (value_plain "program" (by decide)))
      (.last (member_compact "body" (by decide) block))))
  have written := text_of_eq written (by decide +kernel : _ = faultyDocument)
  obtain ⟨faults, -⟩ := tag_faults_reported "x.json" (.inl ⟨written, Nat.le_of_ble_eq_true rfl⟩)
  obtain ⟨-, top⟩ := Reached.of_text written (Nat.le_of_ble_eq_true rfl)
  have body := top.child .program (holds_head (by simp)) (by decide)
    (List.mem_of_getElem? (i := 2) rfl) ((holds_head (by simp)).cons _) (by simp)
  have declaration := body.item .block (holds_head (by simp)) (by decide)
    (List.mem_of_getElem? (i := 0) rfl) ((holds_head (by simp)).cons _)
    1 rfl
  have statements := body.child .block (holds_head (by simp)) (by decide)
    (List.mem_of_getElem? (i := 1) rfl) (((holds_head (by simp)).cons _).cons _) (by simp)
  refine ⟨⟨_, written, Nat.le_of_ble_eq_true rfl⟩, ?_, ?_⟩
  · refine reports_of_eq ((faults _ _ _ declaration).1 fun tag tags => ?_) (by decide +kernel)
    cases tags with
    | string given => cases lookupLast_of_holds given
    | null given => cases lookupLast_of_holds given
  · exact reports_of_eq ((faults _ _ _ statements).2 "oops" (.string (holds_head (by simp)))
      (by decide)) (by decide +kernel)

end PascalCompiler.Document
