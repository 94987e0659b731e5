import PascalCompiler.Proofs.Document.Recovery

/-!
# The fields of nodes in documents

Every kind of node has its own reader, but all of them do the same with the members of an
object: they read nodes, lists of nodes, texts and integers, each under its names, and note
what is missing or has another shape. The table `Kind.fields` lists for each kind what is read
and what is missed. The reader of a kind does what the table says: the node has a part for
every field, and the defects are those of the fields.

## Main definitions

* `Document.Role.kinds`: the kinds of nodes that play a role
* `Document.Need`: when a node is missed
* `Document.Field`: what is read from the members of an object
* `Kind.fields`: the fields of a kind of node
* `Document.Field.part`, `Document.Field.defects`: the part of a node that a field gives, and
  what is noted

## Main results

* `Document.readKind_fields`: a node of a kind is read field by field
-/

namespace PascalCompiler

/-- To show something of all nodes, it is shown of each kind. -/
@[elab_as_elim]
theorem Node.cases_kind {motive : Node → Prop} (node : Node)
    (program : ∀ value, motive (.program value)) (unit : ∀ value, motive (.unit value))
    (programHeader : ∀ value, motive (.programHeader value))
    (unitHeader : ∀ value, motive (.unitHeader value))
    (interfacePart : ∀ value, motive (.interfacePart value))
    (implementationPart : ∀ value, motive (.implementationPart value))
    (usesClause : ∀ value, motive (.uses value)) (comment : ∀ value, motive (.comment value))
    (identifier : ∀ value, motive (.ident value))
    (inbuiltType : ∀ position name, motive (.type (.inbuilt position name)))
    (typeIdentifier : ∀ position name, motive (.type (.named position name)))
    (valueParameter : ∀ value, motive (.param value)) (block : ∀ value, motive (.block value))
    (variableDeclaration : ∀ value, motive (.decl (.var value)))
    (variableDeclarationPart : ∀ position list, motive (.decl (.vars position list)))
    (constantDeclaration : ∀ value, motive (.decl (.const value)))
    (constantDeclarationPart : ∀ position list, motive (.decl (.consts position list)))
    (procedureHeader : ∀ position name params,
      motive (.decl (.header ⟨position, .procedure, name, params⟩)))
    (functionHeader : ∀ position result name params,
      motive (.decl (.header ⟨position, .function result, name, params⟩)))
    (procedureDeclaration : ∀ position name params block scope,
      motive (.decl (.routine ⟨position, .procedure, name, params, block, scope⟩)))
    (functionDeclaration : ∀ position result name params block scope,
      motive (.decl (.routine ⟨position, .function result, name, params, block, scope⟩)))
    (assignment : ∀ position target op source,
      motive (.stmt (.assign position target op source)))
    (procedureStatement : ∀ position target args, motive (.stmt (.call position target args)))
    (compoundStatement : ∀ value, motive (.stmt (.compound value)))
    (ifStatement : ∀ position condition onTrue onFalse,
      motive (.stmt (.ifThen position condition onTrue onFalse)))
    (tryExcept : ∀ position body handlers, motive (.stmt (.tryExcept position body handlers)))
    (tryFinally : ∀ position body cleanup, motive (.stmt (.tryFinally position body cleanup)))
    (exceptionHandlerClause : ∀ value, motive (.handler value))
    (stringConstant : ∀ position value, motive (.expr (.text position value)))
    (controlString : ∀ position code, motive (.expr (.control position code)))
    (integerConstant : ∀ position value, motive (.expr (.integer position value)))
    (parens : ∀ position inner, motive (.expr (.parens position inner)))
    (binaryOp : ∀ position op left right, motive (.expr (.binary position op left right)))
    (functionCall : ∀ position target args, motive (.expr (.call position target args)))
    (setConstructor : ∀ position elements, motive (.expr (.setOf position elements)))
    (range : ∀ value, motive (.range value)) : motive node := by
  cases node with
  | type type => cases type <;> simp only [*]
  | decl decl =>
    cases decl with
    | header value => rcases value with ⟨_, _ | _, _, _⟩ <;> simp only [*]
    | routine value => rcases value with ⟨_, _ | _, _, _, _, _⟩ <;> simp only [*]
    | _ => simp only [*]
  | stmt stmt => cases stmt <;> simp only [*]
  | expr expr => cases expr <;> simp only [*]
  | _ => simp only [*]

/-- Is the value an array? -/
def Json.isArray : Json → Bool
  | .array .. => true
  | _ => false

namespace Document

/-! ### Readings -/

namespace Reading

variable {α β : Type}

@[simp] theorem value_pure (a : α) : (pure a : Reading α).value = a := rfl

@[simp] theorem defects_pure (a : α) : (pure a : Reading α).defects = [] := rfl

@[simp] theorem value_bind (reading : Reading α) (next : α → Reading β) :
    (reading >>= next).value = (next reading.value).value := rfl

@[simp] theorem defects_bind (reading : Reading α) (next : α → Reading β) :
    (reading >>= next).defects = reading.defects ++ (next reading.value).defects := rfl

@[simp] theorem defects_report (position : Position) (path : Path) (cause : Cause) :
    (report position path cause).defects = [⟨position, path, cause⟩] := rfl

end Reading

@[simp] theorem defects_objectReport (object : Object) (path : Path) (cause : Cause) :
    (object.report path cause).defects = [⟨object.position, path, cause⟩] := rfl

/-! ### Roles -/

/-- The kinds of the nodes that play a role. -/
def Role.kinds : Role → List Kind
  | .kind wanted => [wanted]
  | .type => [.inbuiltType, .typeIdentifier]
  | .declaration =>
    [.variableDeclaration, .variableDeclarationPart, .constantDeclaration,
      .constantDeclarationPart, .procedureHeader, .functionHeader, .procedureDeclaration,
      .functionDeclaration]
  | .statement =>
    [.assignment, .procedureStatement, .compoundStatement, .ifStatement, .tryExcept, .tryFinally]
  | .expression =>
    [.stringConstant, .controlString, .integerConstant, .parens, .binaryOp, .functionCall,
      .setConstructor]
  | .setElement =>
    [.stringConstant, .controlString, .integerConstant, .parens, .binaryOp, .functionCall,
      .setConstructor, .range]

/-- Does a node of the kind play the role? -/
def Role.admits (role : Role) (node : Node) : Bool :=
  role.kinds.contains node.kind

/-- The nodes that play the role are those of the values, and are taken for these. -/
structure Role.Fits {α : Type} (role : Role) (as? : Node → Option α) (node : α → Node) : Prop where
  takes : Node.Takes as? node
  admits : ∀ n, role.admits n = (as? n).isSome

section Fits

theorem fits_ident : (Role.kind .identifier).Fits Node.asIdent? .ident :=
  ⟨Node.takes_ident, fun n => by cases n using Node.cases_kind <;> rfl⟩

theorem fits_type : Role.type.Fits Node.asType? .type :=
  ⟨Node.takes_type, fun n => by cases n using Node.cases_kind <;> rfl⟩

theorem fits_decl : Role.declaration.Fits Node.asDecl? .decl :=
  ⟨Node.takes_decl, fun n => by cases n using Node.cases_kind <;> rfl⟩

theorem fits_var :
    (Role.kind .variableDeclaration).Fits Node.asVar? (fun value => .decl (.var value)) :=
  ⟨Node.takes_var, fun n => by cases n using Node.cases_kind <;> rfl⟩

theorem fits_const :
    (Role.kind .constantDeclaration).Fits Node.asConst? (fun value => .decl (.const value)) :=
  ⟨Node.takes_const, fun n => by cases n using Node.cases_kind <;> rfl⟩

theorem fits_param : (Role.kind .valueParameter).Fits Node.asParam? .param :=
  ⟨Node.takes_param, fun n => by cases n using Node.cases_kind <;> rfl⟩

theorem fits_stmt : Role.statement.Fits Node.asStmt? .stmt :=
  ⟨Node.takes_stmt, fun n => by cases n using Node.cases_kind <;> rfl⟩

theorem fits_compound :
    (Role.kind .compoundStatement).Fits Node.asCompound? (fun value => .stmt (.compound value)) :=
  ⟨Node.takes_compound, fun n => by cases n using Node.cases_kind <;> rfl⟩

theorem fits_clause : (Role.kind .exceptionHandlerClause).Fits Node.asClause? .handler :=
  ⟨Node.takes_clause, fun n => by cases n using Node.cases_kind <;> rfl⟩

theorem fits_expr : Role.expression.Fits Node.asExpr? .expr :=
  ⟨Node.takes_expr, fun n => by cases n using Node.cases_kind <;> rfl⟩

theorem fits_element : Role.setElement.Fits Node.asElement? Element.node :=
  ⟨Node.takes_element, fun n => by cases n using Node.cases_kind <;> rfl⟩

theorem fits_block : (Role.kind .block).Fits Node.asBlock? .block :=
  ⟨Node.takes_block, fun n => by cases n using Node.cases_kind <;> rfl⟩

theorem fits_comment : (Role.kind .comment).Fits Node.asComment? .comment :=
  ⟨Node.takes_comment, fun n => by cases n using Node.cases_kind <;> rfl⟩

theorem fits_uses : (Role.kind .usesClause).Fits Node.asUses? .uses :=
  ⟨Node.takes_uses, fun n => by cases n using Node.cases_kind <;> rfl⟩

theorem fits_programHeader :
    (Role.kind .programHeader).Fits Node.asProgramHeader? .programHeader :=
  ⟨Node.takes_programHeader, fun n => by cases n using Node.cases_kind <;> rfl⟩

theorem fits_unitHeader : (Role.kind .unitHeader).Fits Node.asUnitHeader? .unitHeader :=
  ⟨Node.takes_unitHeader, fun n => by cases n using Node.cases_kind <;> rfl⟩

theorem fits_interfacePart :
    (Role.kind .interfacePart).Fits Node.asInterface? .interfacePart :=
  ⟨Node.takes_interfacePart, fun n => by cases n using Node.cases_kind <;> rfl⟩

theorem fits_implementationPart :
    (Role.kind .implementationPart).Fits Node.asImplementation? .implementationPart :=
  ⟨Node.takes_implementationPart, fun n => by cases n using Node.cases_kind <;> rfl⟩

end Fits

/-! ### Fields -/

/-- When a node is missed, and under which word. -/
inductive Need where
  | never
  /-- If nothing is there. -/
  | absent (word : String)
  /-- If no node is there. -/
  | unread (word : String)
  /-- If no node is there that plays the role. -/
  | untaken (word : String)

/-- What is read from the members of an object. -/
inductive Field where
  /-- A node, under the first of its names that has one. -/
  | child (key : String) (aliases : List String) (need : Need) (role : Role)
  /-- The nodes of a list. An item that is no node is missed if there is a word for it. -/
  | list (key : String) (listing : Listing) (word : Option String) (role : Role)
  | text (key : String) (aliases : List String) (needed : Bool)
  | integer (key : String)
  /-- The comments of a program, which are in an object of their own. -/
  | comments

namespace Field

/-- A node that may be absent. -/
def optional (key : String) (role : Role) : Field :=
  .child key [] .never role

/-- A node that must be there, and is missed under its name. -/
def mandatory (key : String) (role : Role) : Field :=
  .child key [] (.absent key) role

/-- A list of statements, in which null stands for an empty one. -/
def statements (key : String) : Field :=
  .list key .sparse none .statement

/-- What follows `except`, which can be listed. -/
def handlers (listed : Bool) : Field :=
  if listed then .list "handlers" .bracketed none .statement
  else .optional "handlers" (.kind .exceptionHandlerClause)

end Field

end Document

/-- The fields of a kind of node, in the order of the node's parts. It is told whether what
follows `except` is written as a list. -/
def Kind.fields (listed : Bool) : Kind → List Document.Field
  | .program =>
    [.optional "header" (.kind .programHeader), .optional "uses" (.kind .usesClause),
      .child "body" [] (.untaken "body") (.kind .block), .comments]
  | .unit =>
    [.optional "header" (.kind .unitHeader),
      .child "interface" ["interfacePart"] .never (.kind .interfacePart),
      .child "implementation" ["implementationPart"] .never (.kind .implementationPart)]
  | .programHeader | .unitHeader => [.optional "identifier" (.kind .identifier)]
  | .interfacePart | .implementationPart =>
    [.optional "uses" (.kind .usesClause),
      .list "declarations" .plain (some "declaration") .declaration]
  | .usesClause => [.list "list" .plain (some "identifier") (.kind .identifier)]
  | .comment => [.text "content" [] false]
  | .identifier => [.text "value" [] true]
  | .inbuiltType => [.text "typeName" [] true]
  | .typeIdentifier => [.mandatory "typeName" (.kind .identifier)]
  | .valueParameter =>
    [.list "identifiers" .plain (some "identifier") (.kind .identifier),
      .optional "paramType" .type]
  | .block =>
    [.list "declarations" .plain (some "declaration") .declaration,
      .child "statements" [] (.unread "statements") (.kind .compoundStatement)]
  | .variableDeclaration =>
    [.list "identifiers" .nonempty (some "identifier") (.kind .identifier),
      .optional "variableType" .type, .optional "expression" .expression]
  | .variableDeclarationPart => [.list "list" .sparse none (.kind .variableDeclaration)]
  | .constantDeclaration =>
    [.mandatory "identifier" (.kind .identifier), .optional "constantType" .type,
      .mandatory "expression" .expression]
  | .constantDeclarationPart => [.list "list" .sparse none (.kind .constantDeclaration)]
  | .procedureHeader =>
    [.mandatory "identifier" (.kind .identifier),
      .list "params" .plain (some "parameter declaration") (.kind .valueParameter)]
  | .functionHeader =>
    [.mandatory "identifier" (.kind .identifier),
      .list "params" .plain (some "parameter declaration") (.kind .valueParameter),
      .optional "returnType" .type]
  | .procedureDeclaration =>
    [.mandatory "identifier" (.kind .identifier),
      .list "params" .plain (some "parameter declaration") (.kind .valueParameter),
      .optional "block" (.kind .block)]
  | .functionDeclaration =>
    [.mandatory "identifier" (.kind .identifier),
      .list "params" .plain (some "parameter declaration") (.kind .valueParameter),
      .optional "block" (.kind .block), .optional "returnType" .type]
  | .assignment =>
    [.child "target" ["identifier"] (.absent "target") (.kind .identifier),
      .text "operator" [] true, .mandatory "expression" .expression]
  | .procedureStatement | .functionCall =>
    [.mandatory "target" (.kind .identifier),
      .list "params" .plain (some "expression") .expression]
  | .compoundStatement => [.statements "list"]
  | .ifStatement =>
    [.mandatory "condition" .expression, .optional "trueBranch" .statement,
      .optional "falseBranch" .statement]
  | .tryExcept => [.statements "body", .handlers listed]
  | .tryFinally => [.statements "body", .statements "fin"]
  | .exceptionHandlerClause =>
    [.optional "identifier" (.kind .identifier), .optional "exceptionType" .type,
      .optional "statement" .statement]
  | .stringConstant => [.text "value" [] false]
  | .controlString | .integerConstant => [.integer "value"]
  | .parens => [.mandatory "expression" .expression]
  | .binaryOp =>
    [.text "op" ["operator"] true, .mandatory "left" .expression,
      .mandatory "right" .expression]
  | .setConstructor => [.list "list" .sparse none .setElement]
  | .range => [.mandatory "start" .expression, .mandatory "end" .expression]
  | .invalid | .other _ => []

/-- What the table says of all its fields holds of every field of a kind. -/
theorem Kind.check_of_mem_fields {check : Kind → Document.Field → Bool}
    (table : (Kind.all.all fun kind =>
      (kind.fields true ++ kind.fields false).all (check kind)) = true)
    {kind : Kind} (known : kind ∈ Kind.all) {listed : Bool} {field : Document.Field}
    (isField : field ∈ kind.fields listed) : check kind field = true := by
  have either : field ∈ kind.fields true ++ kind.fields false := by
    cases listed with
    | true => exact List.mem_append_left _ isField
    | false => exact List.mem_append_right _ isField
  exact List.all_eq_true.mp (List.all_eq_true.mp table kind known) field either

namespace Document

/-! ### What fields give and note -/

/-- The node in a slot, if it plays the role. -/
def Slot.taken (slot : Slot) (role : Role) : Option Node :=
  slot.node.value.filter role.admits

/-- What is noted of a node that plays another role. -/
def miscast (role : Role) (path : Path) (node : Option Node) : List Defect :=
  (node.toList.filter (!role.admits ·)).map fun other =>
    ⟨other.position, path, .unexpected role other.kind⟩

/-- The word under which a node is missed, if it is. -/
def Need.missed (need : Need) (slot : Slot) (role : Role) : Option String :=
  match need with
  | .never => none
  | .absent word => if slot.view?.isNone then some word else none
  | .unread word => if slot.node.value.isNone then some word else none
  | .untaken word => if (slot.taken role).isNone then some word else none

/-- Must the node be there? -/
def Need.isNeeded : Need → Bool
  | .never => false
  | .absent _ | .unread _ | .untaken _ => true

namespace Object

/-- What is noted of a node that is missed. -/
def missing (object : Object) (path : Path) (word : Option String) : List Defect :=
  word.toList.map fun word => ⟨object.position, path, .missing word⟩

/-- What is noted of a field for a node, besides the defects of the node. -/
def childNotes (object : Object) (slot : Slot) (need : Need) (role : Role) : List Defect :=
  miscast role slot.path slot.node.value ++ object.missing slot.path (need.missed slot role)

/-- All that is noted of a field for a node. -/
def childDefects (object : Object) (slot : Slot) (need : Need) (role : Role) : List Defect :=
  slot.node.defects ++ object.childNotes slot need role

/-- What is noted of an item of a list, besides the defects of the item. -/
def itemNotes (object : Object) (word : Option String) (role : Role) (place : Path)
    (node : Option Node) : List Defect :=
  object.missing place (if node.isNone then word else none) ++ miscast role place node

/-- All that is noted of an item of a list. -/
def itemDefects (object : Object) (word : Option String) (role : Role) (place : Path)
    (view : View) : List Defect :=
  (view.node place).defects ++ object.itemNotes word role place (view.node place).value

/-- The nodes that are read from the items of a list. -/
def itemNodes (role : Role) (path : Path) (views : List View) (index : Nat) : List Node :=
  (views.zipIdx index).filterMap fun item =>
    (item.1.node (path.index item.2)).value.filter role.admits

/-- The nodes that are read from a list. -/
def listed (object : Object) (key : String) (role : Role) : List Node :=
  itemNodes role (object.slot key []).path (items (object.slot key [])).value 0

/-- What is noted of a field for a list. -/
def listDefects (object : Object) (key : String) (word : Option String) (role : Role) :
    List Defect :=
  (items (object.slot key [])).defects ++
    ((items (object.slot key [])).value.zipIdx).flatMap fun item =>
      object.itemDefects word role ((object.slot key []).path.index item.2) item.1

/-- Is what follows `except` written as a list? -/
def listsHandlers (object : Object) : Bool :=
  (object.slot "handlers" []).view?.any (·.json.isArray)

end Object

/-- The part of a node that a field gives. -/
def Field.part (document : Bytes) (object : Object) : Field → Component
  | .child key aliases need role =>
    .child key aliases need.isNeeded ((object.slot key aliases).taken role)
  | .list key listing _ role => .list key listing ((object.listed key role).map some)
  | .text key aliases needed => .text key aliases needed (object.text key aliases needed).value
  | .integer key => .integer key (object.integer document key).value
  | .comments => .comments object.comments.value

/-- What is noted of a field. -/
def Field.defects (document : Bytes) (object : Object) : Field → List Defect
  | .child key aliases need role => object.childDefects (object.slot key aliases) need role
  | .list key listing word role =>
    object.listDefects key word role ++
      if listing = .nonempty ∧ object.listed key role = [] then
        [⟨object.position, object.path.member key, .noVariables⟩]
      else []
  | .text key aliases needed => (object.text key aliases needed).defects
  | .integer key => (object.integer document key).defects
  | .comments => object.comments.defects

/-! ### Readers of parts -/

section Parts

variable {document : Bytes} {object : Object} {key : String} {aliases : List String}
  {role : Role} {α : Type} {as? : Node → Option α} {node : α → Node}

theorem map_value_cast (fits : role.Fits as? node) (path : Path) (value : Option Node) :
    (Object.cast role as? path value).value.map node = value.filter role.admits := by
  cases value with
  | none => rfl
  | some n =>
    rw [Object.cast, Option.filter_some, fits.admits]
    cases taken : as? n with
    | none => rfl
    | some a => simp [(fits.takes n a).mp taken]

theorem defects_cast (fits : role.Fits as? node) (path : Path) (value : Option Node) :
    (Object.cast role as? path value).defects = miscast role path value := by
  cases value with
  | none => rfl
  | some n =>
    rw [Object.cast, miscast, Option.toList_some, List.filter_cons, fits.admits]
    cases as? n <;> rfl

theorem map_value_optional (fits : role.Fits as? node) :
    (object.optional key aliases role as?).value.map node =
      (object.slot key aliases).taken role :=
  map_value_cast fits _ _

theorem defects_optional (fits : role.Fits as? node) :
    (object.optional key aliases role as?).defects =
      object.childDefects (object.slot key aliases) .never role := by
  simp [Object.optional, Object.childDefects, Object.childNotes, defects_cast fits, Need.missed,
    Object.missing]

/-- Nothing is in an empty slot. -/
theorem Slot.node_of_isNone {slot : Slot} (absent : slot.view?.isNone) : slot.node = pure none := by
  rw [Slot.node, Option.isNone_iff_eq_none.mp absent]

theorem map_value_mandatory (fits : role.Fits as? node) {word : String} :
    (object.mandatory key aliases word role as?).value.map node =
      (object.slot key aliases).taken role := by
  rw [Object.mandatory]
  split <;> exact map_value_cast fits _ _

theorem defects_mandatory (fits : role.Fits as? node) {word : String} :
    (object.mandatory key aliases word role as?).defects =
      object.childDefects (object.slot key aliases) (.absent word) role := by
  rw [Object.mandatory, Object.childDefects, Object.childNotes, Need.missed]
  by_cases absent : (object.slot key aliases).view?.isNone
  · simp [absent, Slot.node_of_isNone absent, Object.cast, miscast, Object.missing]
  · simp [absent, defects_cast fits, Object.missing]

theorem map_value_castItems (fits : role.Fits as? node) (path : Path) (word : Option String)
    (index : Nat) (views : List View) :
    (object.castItems path word role as? index views).value.map node =
      Object.itemNodes role path views index := by
  induction views generalizing index with
  | nil => rfl
  | cons view rest ih =>
    have value : (object.castItems path word role as? index (view :: rest)).value =
        (Object.cast role as? (path.index index)
          (view.node (path.index index)).value).value.toList ++
          (object.castItems path word role as? (index + 1) rest).value := by
      rw [Object.castItems, Reading.value_bind]
      split
      · split <;> rfl
      · rfl
    rw [value, List.map_append, ih, Object.itemNodes, Object.itemNodes, List.zipIdx_cons,
      List.filterMap_cons, ← map_value_cast fits]
    cases (Object.cast role as? (path.index index) (view.node (path.index index)).value).value <;>
      rfl

theorem defects_castItems (fits : role.Fits as? node) (path : Path) (word : Option String)
    (index : Nat) (views : List View) :
    (object.castItems path word role as? index views).defects =
      (views.zipIdx index).flatMap fun item =>
        object.itemDefects word role (path.index item.2) item.1 := by
  induction views generalizing index with
  | nil => rfl
  | cons view rest ih =>
    rw [List.zipIdx_cons, List.flatMap_cons, ← ih, Object.castItems, Object.itemDefects,
      Object.itemNotes]
    cases read : (view.node (path.index index)).value with
    | none => cases word <;> simp [read, defects_cast fits, Object.missing]
    | some child => simp [read, defects_cast fits, Object.missing]

theorem map_value_list (fits : role.Fits as? node) (word : Option String) :
    (object.list key word role as?).value.map node = object.listed key role :=
  map_value_castItems fits _ word 0 _

theorem defects_list (fits : role.Fits as? node) (word : Option String) :
    (object.list key word role as?).defects = object.listDefects key word role := by
  rw [Object.list, Reading.defects_bind, defects_castItems fits]
  rfl

theorem listOf_list (fits : role.Fits as? node) (listing : Listing) (word : Option String) :
    Component.listOf key listing node ((object.list key word role as?).value.map some) =
      .list key listing ((object.listed key role).map some) := by
  rw [Component.listOf, ← map_value_list fits word]
  simp

theorem map_value_statements :
    object.statements.value.map (fun body => Node.stmt (.compound body)) =
      (object.slot "statements" []).taken (.kind .compoundStatement) := by
  rw [Object.statements, Reading.value_bind]
  split <;> exact map_value_cast fits_compound _ _

/-- The statements of a block are missed by what is read, not by what is there. -/
theorem defects_statements :
    object.statements.defects = object.childDefects (object.slot "statements" [])
      (.unread "statements") (.kind .compoundStatement) := by
  rw [Object.statements, Object.childDefects, Object.childNotes, Need.missed]
  cases read : (object.slot "statements" []).node.value with
  | none => simp [read, defects_cast fits_compound, Object.missing, miscast]
  | some child => simp [read, defects_cast fits_compound, Object.missing]

theorem handlers?_of_listed (listed : object.listsHandlers) :
    object.handlers?.value =
      some (.all ((object.list "handlers" none .statement Node.asStmt?).value.map some)) ∧
    object.handlers?.defects = (object.list "handlers" none .statement Node.asStmt?).defects := by
  rw [Object.listsHandlers] at listed
  cases found : (object.slot "handlers" []).view? with
  | none => simp [found] at listed
  | some view =>
    cases shape : view.json with
    | array => simp [Object.handlers?, Object.list, Object.items, found, shape]
    | _ => simp [found, shape, Json.isArray] at listed

theorem handlers?_of_unlisted (unlisted : object.listsHandlers = false) :
    object.handlers?.value =
      (object.optional "handlers" [] (.kind .exceptionHandlerClause) Node.asClause?).value.map
        .clause ∧
    object.handlers?.defects =
      (object.optional "handlers" [] (.kind .exceptionHandlerClause) Node.asClause?).defects := by
  rw [Object.listsHandlers] at unlisted
  cases found : (object.slot "handlers" []).view? with
  | none => simp [Object.handlers?, Object.optional, Slot.node, found, Object.cast]
  | some view =>
    cases shape : view.json with
    | array => simp [found, shape, Json.isArray] at unlisted
    | _ => simp [Object.handlers?, Object.optional, Slot.node, found, shape]

/-- What follows `except` is read as a list if it is written as one. -/
theorem part_handlers :
    Component.handlers object.handlers?.value =
      (Field.handlers object.listsHandlers).part document object := by
  cases listed : object.listsHandlers with
  | true =>
    rw [(handlers?_of_listed listed).1, Component.handlers, listOf_list fits_stmt]
    rfl
  | false =>
    rw [(handlers?_of_unlisted listed).1, Field.handlers, if_neg Bool.false_ne_true,
      Field.optional, Field.part, ← map_value_optional fits_clause]
    cases (object.optional "handlers" [] (.kind .exceptionHandlerClause) Node.asClause?).value <;>
      rfl

theorem defects_handlers :
    object.handlers?.defects = (Field.handlers object.listsHandlers).defects document object := by
  cases listed : object.listsHandlers with
  | true =>
    rw [(handlers?_of_listed listed).2, defects_list fits_stmt, Field.handlers, if_pos rfl,
      Field.defects, if_neg (by simp), List.append_nil]
  | false =>
    rw [(handlers?_of_unlisted listed).2, defects_optional fits_clause]
    rfl

/-- A slot is under one of its names. -/
theorem exists_path_slot (object : Object) (key : String) (aliases : List String) :
    ∃ name ∈ key :: aliases, (object.slot key aliases).path = object.path.member name := by
  rw [Object.slot]
  split
  · next found =>
    obtain ⟨name, mem, here⟩ := List.exists_of_findSome?_eq_some found
    obtain ⟨_, -, same⟩ := Option.map_eq_some_iff.mp here
    exact ⟨name, mem, by rw [← (Prod.mk.inj same).1]⟩
  · exact ⟨key, List.mem_cons_self, rfl⟩

theorem path_slot : (object.slot key []).path = object.path.member key := by
  obtain ⟨name, mem, same⟩ := exists_path_slot object key []
  rw [same, List.mem_singleton.mp mem]

end Parts

/-! ### Readers of kinds -/

section Kinds

variable {document : Bytes} {source : Source} {object : Object}

/-- The part and the defects are those of the field. -/
structure ReadsField (document : Bytes) (object : Object) (field : Field) (part : Component)
    (defects : List Defect) : Prop where
  part_eq : part = field.part document object
  defects_eq : defects = field.defects document object

/-- The parts are those of the fields, and so are the defects, in any order. -/
structure ReadsFields (document : Bytes) (object : Object) (fields : List Field)
    (parts : List Component) (defects : List Defect) : Prop where
  parts_eq : parts = fields.map (Field.part document object)
  perm : defects.Perm (fields.flatMap (Field.defects document object))

namespace ReadsFields

theorem nil : ReadsFields document object [] [] [] :=
  ⟨rfl, .nil⟩

theorem cons {field : Field} {part : Component} {fields : List Field} {parts : List Component}
    {first rest : List Defect} (read : ReadsField document object field part first)
    (others : ReadsFields document object fields parts rest) :
    ReadsFields document object (field :: fields) (part :: parts) (first ++ rest) where
  parts_eq := by rw [read.part_eq, others.parts_eq, List.map_cons]
  perm := by
    rw [read.defects_eq, List.flatMap_cons]
    exact others.perm.append_left _

theorem of_perm {fields : List Field} {parts : List Component} {defects others : List Defect}
    (read : ReadsFields document object fields parts defects) (same : others.Perm defects) :
    ReadsFields document object fields parts others :=
  ⟨read.parts_eq, same.trans read.perm⟩

end ReadsFields

section Reads

variable {key : String} {aliases : List String} {role : Role} {α : Type}
  {as? : Node → Option α} {node : α → Node}

theorem reads_optional (fits : role.Fits as? node) :
    ReadsField document object (.child key aliases .never role)
      (.child key aliases false ((object.optional key aliases role as?).value.map node))
      (object.optional key aliases role as?).defects :=
  ⟨congrArg _ (map_value_optional fits), defects_optional fits⟩

theorem reads_mandatory (fits : role.Fits as? node) {word : String} :
    ReadsField document object (.child key aliases (.absent word) role)
      (.child key aliases true ((object.mandatory key aliases word role as?).value.map node))
      (object.mandatory key aliases word role as?).defects :=
  ⟨congrArg _ (map_value_mandatory fits), defects_mandatory fits⟩

theorem reads_list (fits : role.Fits as? node) {listing : Listing} (word : Option String)
    (dense : listing ≠ .nonempty) :
    ReadsField document object (.list key listing word role)
      (.listOf key listing node ((object.list key word role as?).value.map some))
      (object.list key word role as?).defects := by
  refine ⟨listOf_list fits listing word, ?_⟩
  rw [defects_list fits, Field.defects, if_neg fun is => dense is.1, List.append_nil]

/-- Lists of nodes that cannot be missing are read in the same way. -/
theorem reads_items (fits : role.Fits as? node) {listing : Listing} {word : Option String}
    (dense : listing ≠ .nonempty) :
    ReadsField document object (.list key listing word role)
      (.listOf key listing node
        (do return (← object.list key word role as?).map some : Reading (List (Option α))).value)
      (do return (← object.list key word role as?).map some :
        Reading (List (Option α))).defects := by
  have read : ReadsField document object (.list key listing word role) _ _ :=
    reads_list fits word dense
  exact ⟨read.part_eq, (List.append_nil _).trans read.defects_eq⟩

theorem reads_text {needed : Bool} :
    ReadsField document object (.text key aliases needed)
      (.text key aliases needed (object.text key aliases needed).value)
      (object.text key aliases needed).defects :=
  ⟨rfl, rfl⟩

theorem reads_integer :
    ReadsField document object (.integer key) (.integer key (object.integer document key).value)
      (object.integer document key).defects :=
  ⟨rfl, rfl⟩

end Reads

/-- A node of the kind is read from the object. -/
structure ReadsNode (document : Bytes) (object : Object) (kind : Kind) (node : Node)
    (defects : List Defect) : Prop where
  kind_eq : node.kind = kind
  position_eq : node.position = object.position
  scope_eq : node.scope = none
  fields : ReadsFields document object (kind.fields object.listsHandlers) node.parts defects

/-- Some node of the kind is read from the object. -/
def ReadsKind {α : Type} (document : Bytes) (object : Object) (kind : Kind) (node : α → Node)
    (reading : Reading (Option α)) : Prop :=
  ∃ value, reading.value = some value ∧
    ReadsNode document object kind (node value) reading.defects

theorem readsKind_return {α β : Type} {kind : Kind} {reading : Reading α} {wrap : α → β}
    {node : β → Node}
    (reads : ReadsNode document object kind (node (wrap reading.value)) reading.defects) :
    ReadsKind document object kind node (do return some (wrap (← reading))) := by
  refine ⟨wrap reading.value, rfl, ?_⟩
  rwa [Reading.defects_bind, Reading.defects_pure, List.append_nil]

theorem readsKind_map {α : Type} {kind : Kind} {reading : Reading (Option α)} {node : α → Node}
    (reads : ReadsKind document object kind node reading) :
    ReadsKind document object kind id (do return (← reading).map node) := by
  obtain ⟨value, isValue, reads⟩ := reads
  refine ⟨node value, by rw [Reading.value_bind, isValue]; rfl, ?_⟩
  rwa [Reading.defects_bind, Reading.defects_pure, List.append_nil]

theorem readExpr_fields {kind : Kind} (isExpr : kind ∈ Role.expression.kinds) :
    ReadsKind source.text object kind .expr (readExpr source object kind) := by
  cases kind with
  | stringConstant => exact ⟨_, rfl, rfl, rfl, rfl, .cons reads_text .nil⟩
  | controlString | integerConstant => exact ⟨_, rfl, rfl, rfl, rfl, .cons reads_integer .nil⟩
  | parens => exact ⟨_, rfl, rfl, rfl, rfl, .cons (reads_mandatory fits_expr) .nil⟩
  | binaryOp =>
    exact ⟨_, rfl, rfl, rfl, rfl, .cons reads_text <| .cons (reads_mandatory fits_expr) <|
      .cons (reads_mandatory fits_expr) .nil⟩
  | functionCall =>
    exact ⟨_, rfl, rfl, rfl, rfl, .cons (reads_mandatory fits_ident) <|
      .cons (reads_items fits_expr (by decide)) .nil⟩
  | setConstructor =>
    exact ⟨_, rfl, rfl, rfl, rfl, .cons (reads_list fits_element _ (by decide)) .nil⟩
  | _ => simp [Role.kinds] at isExpr

theorem readStmt_fields {kind : Kind} (isStmt : kind ∈ Role.statement.kinds) :
    ReadsKind document object kind .stmt (readStmt object kind) := by
  cases kind with
  | assignment =>
    exact ⟨_, rfl, rfl, rfl, rfl, .cons (reads_mandatory fits_ident) <| .cons reads_text <|
      .cons (reads_mandatory fits_expr) .nil⟩
  | procedureStatement =>
    exact ⟨_, rfl, rfl, rfl, rfl, .cons (reads_mandatory fits_ident) <|
      .cons (reads_items fits_expr (by decide)) .nil⟩
  | compoundStatement =>
    exact ⟨_, rfl, rfl, rfl, rfl, .cons (reads_items fits_stmt (by decide)) .nil⟩
  | ifStatement =>
    exact ⟨_, rfl, rfl, rfl, rfl, .cons (reads_mandatory fits_expr) <|
      .cons (reads_optional fits_stmt) <| .cons (reads_optional fits_stmt) .nil⟩
  | tryExcept =>
    exact ⟨_, rfl, rfl, rfl, rfl, .cons (reads_items fits_stmt (by decide)) <|
      .cons ⟨part_handlers, defects_handlers⟩ .nil⟩
  | tryFinally =>
    exact ⟨_, rfl, rfl, rfl, rfl, .cons (reads_items fits_stmt (by decide)) <|
      .cons (reads_items fits_stmt (by decide)) .nil⟩
  | _ => simp [Role.kinds] at isStmt

theorem value_readVar :
    (readVar object).value = ⟨object.position, (object.idents "identifiers").value,
      (object.type? "variableType").value, (object.expr? "expression").value⟩ := by
  simp only [readVar, Reading.value_bind]
  split <;> rfl

theorem isEmpty_idents :
    (object.idents "identifiers").value.isEmpty =
      decide (object.listed "identifiers" (.kind .identifier) = []) := by
  rw [← map_value_list fits_ident (some "identifier"), Bool.eq_iff_iff]
  simp [Object.idents]

/-- That no variable is declared is noted behind all else. -/
theorem defects_readVar :
    (readVar object).defects = (object.idents "identifiers").defects ++
      ((object.type? "variableType").defects ++ ((object.expr? "expression").defects ++
        if object.listed "identifiers" (.kind .identifier) = [] then
          [⟨object.position, object.path.member "identifiers", .noVariables⟩]
        else [])) := by
  simp only [readVar, Reading.defects_bind, isEmpty_idents, decide_eq_true_eq]
  split <;> rfl

theorem reads_var :
    ReadsNode document object .variableDeclaration (.decl (.var (readVar object).value))
      (readVar object).defects := by
  have names : ReadsField document object
      (.list "identifiers" .nonempty (some "identifier") (.kind .identifier))
      (.listOf "identifiers" .nonempty .ident (object.idents "identifiers").value)
      ((object.idents "identifiers").defects ++
        if object.listed "identifiers" (.kind .identifier) = [] then
          [⟨object.position, object.path.member "identifiers", .noVariables⟩]
        else []) := by
    refine ⟨listOf_list fits_ident .nonempty _, ?_⟩
    simp [Object.idents, defects_list fits_ident, Field.defects]
  rw [value_readVar, defects_readVar]
  refine ⟨rfl, rfl, rfl, (ReadsFields.cons names <| .cons (reads_optional fits_type) <|
    .cons (reads_optional fits_expr) .nil).of_perm ?_⟩
  rw [List.append_assoc, List.append_nil, ← List.append_assoc (object.type? _).defects]
  exact List.perm_append_comm.append_left _

theorem reads_const :
    ReadsNode document object .constantDeclaration (.decl (.const (readConst object).value))
      (readConst object).defects :=
  ⟨rfl, rfl, rfl, .cons (reads_mandatory fits_ident) <| .cons (reads_optional fits_type) <|
    .cons (reads_mandatory fits_expr) .nil⟩

theorem reads_result :
    ReadsField document object (.optional "returnType" .type)
      (.optional "returnType" .type (object.type? "returnType").value)
      (readRoutineKind object true).defects := by
  have read : ReadsField document object (.child "returnType" [] .never .type) _ _ :=
    reads_optional fits_type
  exact ⟨read.part_eq, (List.append_nil _).trans read.defects_eq⟩

theorem reads_procedureHeader :
    ReadsNode document object .procedureHeader (.decl (.header (readHeader object false).value))
      (readHeader object false).defects :=
  ⟨rfl, rfl, rfl, .cons (reads_mandatory fits_ident) <|
    .cons (reads_items fits_param (by decide)) .nil⟩

theorem reads_functionHeader :
    ReadsNode document object .functionHeader (.decl (.header (readHeader object true).value))
      (readHeader object true).defects :=
  ⟨rfl, rfl, rfl, .cons (reads_mandatory fits_ident) <|
    .cons (reads_items fits_param (by decide)) <| .cons reads_result .nil⟩

theorem reads_procedure :
    ReadsNode document object .procedureDeclaration
      (.decl (.routine (readRoutine object false).value)) (readRoutine object false).defects :=
  ⟨rfl, rfl, rfl, ReadsFields.of_perm (.cons (reads_mandatory fits_ident) <|
    .cons (reads_items fits_param (by decide)) <| .cons (reads_optional fits_block) .nil) (.refl _)⟩

/-- The result type of a function is read in front of its block, but is a part behind it. -/
theorem reads_function :
    ReadsNode document object .functionDeclaration
      (.decl (.routine (readRoutine object true).value)) (readRoutine object true).defects := by
  refine ⟨rfl, rfl, rfl, ReadsFields.of_perm (.cons (reads_mandatory fits_ident) <|
    .cons (reads_items fits_param (by decide)) <| .cons (reads_optional fits_block) <|
      .cons reads_result .nil) (.append_left _ (.append_left _ ?_))⟩
  rw [List.append_nil]
  exact (List.append_nil (object.block? "block").defects).symm ▸ List.perm_append_comm

theorem readDecl_fields {kind : Kind} (isDecl : kind ∈ Role.declaration.kinds) :
    ReadsKind document object kind .decl (readDecl object kind) := by
  cases kind with
  | variableDeclaration => exact readsKind_return reads_var
  | variableDeclarationPart =>
    exact ⟨_, rfl, rfl, rfl, rfl, .cons (reads_list fits_var _ (by decide)) .nil⟩
  | constantDeclaration => exact readsKind_return reads_const
  | constantDeclarationPart =>
    exact ⟨_, rfl, rfl, rfl, rfl, .cons (reads_list fits_const _ (by decide)) .nil⟩
  | procedureHeader => exact readsKind_return reads_procedureHeader
  | functionHeader => exact readsKind_return reads_functionHeader
  | procedureDeclaration => exact readsKind_return reads_procedure
  | functionDeclaration => exact readsKind_return reads_function
  | _ => simp [Role.kinds] at isDecl

/-- The body of a program is missed unless a block is read. -/
theorem reads_body :
    ReadsField document object (.child "body" [] (.untaken "body") (.kind .block))
      (.mandatory "body" .block (object.block? "body").value)
      ((object.block? "body").defects ++
        if (object.block? "body").value.isNone then
          [⟨object.position, object.path.member "body", .missing "body"⟩]
        else []) := by
  have block : (object.block? "body").value.map .block =
      (object.slot "body" []).taken (.kind .block) := map_value_optional fits_block
  have noted : (object.block? "body").defects =
      object.childDefects (object.slot "body" []) .never (.kind .block) :=
    defects_optional fits_block
  refine ⟨congrArg _ block, ?_⟩
  rw [noted, Field.defects, Object.childDefects, Object.childDefects, Object.childNotes,
    Object.childNotes, Need.missed, Need.missed, ← block, path_slot]
  cases (object.block? "body").value <;> simp [Object.missing]

theorem value_readProgram :
    (readProgram object).value = ⟨object.position,
      (object.optional "header" [] (.kind .programHeader) Node.asProgramHeader?).value,
      object.uses?.value, (object.block? "body").value, object.comments.value, none⟩ := by
  simp only [readProgram, Reading.value_bind]
  split <;> rfl

theorem defects_readProgram :
    (readProgram object).defects = object.uses?.defects ++
      ((object.optional "header" [] (.kind .programHeader) Node.asProgramHeader?).defects ++
        (((object.block? "body").defects ++
          if (object.block? "body").value.isNone then
            [⟨object.position, object.path.member "body", .missing "body"⟩]
          else []) ++ (object.comments.defects ++ []))) := by
  simp only [readProgram, Reading.defects_bind, List.append_assoc]
  split <;> rfl

/-- The units that a program uses are read in front of its heading, but are a part behind it. -/
theorem reads_program :
    ReadsNode document object .program (.program (readProgram object).value)
      (readProgram object).defects := by
  rw [value_readProgram, defects_readProgram]
  refine ⟨rfl, rfl, rfl, ReadsFields.of_perm (.cons (reads_optional fits_programHeader) <|
    .cons (reads_optional fits_uses) <| .cons reads_body <| .cons ⟨rfl, rfl⟩ .nil) ?_⟩
  rw [← List.append_assoc, ← List.append_assoc (object.optional "header" _ _ _).defects]
  exact List.perm_append_comm.append_right _

/-- A node of a kind is read field by field: its parts are those of the fields, and so are the
defects. -/
theorem readKind_fields (source : Source) (object : Object) {kind : Kind}
    (known : kind ∈ Kind.all) :
    ReadsKind source.text object kind id (readKind source object kind) := by
  cases kind with
  | program => exact readsKind_return reads_program
  | unit =>
    exact readsKind_return (⟨rfl, rfl, rfl, .cons (reads_optional fits_unitHeader) <|
      .cons (reads_optional fits_interfacePart) <|
        .cons (reads_optional fits_implementationPart) .nil⟩)
  | programHeader | unitHeader =>
    exact ⟨_, rfl, rfl, rfl, rfl, .cons (reads_optional fits_ident) .nil⟩
  | interfacePart | implementationPart =>
    exact readsKind_return ⟨rfl, rfl, rfl, .cons (reads_optional fits_uses) <|
      .cons (reads_items fits_decl (by decide)) .nil⟩
  | usesClause => exact ⟨_, rfl, rfl, rfl, rfl, .cons (reads_items fits_ident (by decide)) .nil⟩
  | comment | identifier | inbuiltType => exact ⟨_, rfl, rfl, rfl, rfl, .cons reads_text .nil⟩
  | typeIdentifier => exact ⟨_, rfl, rfl, rfl, rfl, .cons (reads_mandatory fits_ident) .nil⟩
  | valueParameter =>
    exact ⟨_, rfl, rfl, rfl, rfl, .cons (reads_items fits_ident (by decide)) <|
      .cons (reads_optional fits_type) .nil⟩
  | block =>
    exact ⟨_, rfl, rfl, rfl, rfl, .cons (reads_items fits_decl (by decide)) <|
      .cons ⟨congrArg _ map_value_statements, defects_statements⟩ .nil⟩
  | exceptionHandlerClause =>
    exact ⟨_, rfl, rfl, rfl, rfl, .cons (reads_optional fits_ident) <|
      .cons (reads_optional fits_type) <| .cons (reads_optional fits_stmt) .nil⟩
  | range =>
    exact ⟨_, rfl, rfl, rfl, rfl, .cons (reads_mandatory fits_expr) <|
      .cons (reads_mandatory fits_expr) .nil⟩
  -- statements, expressions and declarations have readers of their own
  | assignment | procedureStatement | compoundStatement | ifStatement | tryExcept | tryFinally =>
    exact readsKind_map (readStmt_fields (by decide))
  | stringConstant | controlString | integerConstant | parens | binaryOp | functionCall
  | setConstructor =>
    exact readsKind_map (readExpr_fields (by decide))
  | variableDeclaration | variableDeclarationPart | constantDeclaration | constantDeclarationPart
  | procedureHeader | functionHeader | procedureDeclaration | functionDeclaration =>
    exact readsKind_map (readDecl_fields (by decide))
  | invalid => exact absurd known (by decide)
  | other number => simp [Kind.all] at known

end Kinds

end Document

end PascalCompiler
