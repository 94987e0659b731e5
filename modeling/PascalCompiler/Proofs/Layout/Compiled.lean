import PascalCompiler.Proofs.Layout.Assembly
import PascalCompiler.Proofs.Lexical.Refinement

/-!
# Laying out compiled files

What a file is compiled to is layable, provided that its identifiers are Pascal identifiers.
So it can be laid out, unless a string constant of the file has a zero character: this is
written into the text as it is, and no script with a zero byte can be laid out.

## Main results

* `Lexical.lays_expr`, `Lexical.lays_stmt`, `Lexical.lays_decl`: layable texts of the parts of a
  file
* `Lexical.lays_translate`: layable texts of files
* `File.format_compiled`: which compiled files can be laid out, and how
-/

namespace PascalCompiler

open Layout

/-! ### Expressions -/

namespace Lexical

variable {alphabet : Ecma.Alphabet} {levels : List Level} {shape : Shape}

theorem isOrdinary_of_continues (alphabet : Ecma.Alphabet) {c : Char}
    (continues : alphabet.continues c) : isOrdinary c := by
  have all : (special.all fun c => !alphabet.continues c) = true := rfl
  by_cases isSpecial : c ∈ special
  · simpa [continues] using List.all_eq_true.mp all c isSpecial
  · simpa [isOrdinary] using isSpecial

/-- The script name of a Pascal identifier has no signs of the layout in it. -/
theorem ordinary_identifier {name : String} (isIdentifier : IsPascalIdentifier alphabet name) :
    (Script.identifier name).toList.all isOrdinary := by
  obtain ⟨c, cs, same, begins, continues⟩ := (Script.isName_identifier isIdentifier).word
  have first : alphabet.continues c := by simp [Ecma.Alphabet.continues, begins]
  rw [same]
  refine List.all_eq_true.mpr (List.forall_mem_cons.mpr ⟨?_, fun c mem => ?_⟩)
  · exact isOrdinary_of_continues alphabet first
  · exact isOrdinary_of_continues alphabet (continues c mem)

theorem lays_name {identifier : Option Ident} {name : String}
    (named : nameOf identifier = some name) :
    Lays alphabet shape (identifier.map Node.ident).toList (Script.identifier name) := by
  obtain ⟨ident, rfl, rfl⟩ : ∃ ident, identifier = some ident ∧ ident.name = name := by
    have isName := (Option.filter_eq_some_iff.mp named).1
    simpa [Option.map_eq_some_iff] using isName
  intro spelled
  have ordinary := ordinary_identifier (spelled _ List.mem_cons_self ident .root)
  have lays : Lays alphabet shape [.ident ident] _ := (Lays.of_ordinary ordinary).node rfl rfl
  exact lays spelled

theorem lays_ident {identifier : Option Ident} {name : String}
    (named : ident identifier = some name) :
    Lays alphabet shape (identifier.map Node.ident).toList name := by
  obtain ⟨source, isSource, rfl⟩ := Option.map_eq_some_iff.mp named
  exact lays_name isSource

theorem lays_idents : ∀ {identifiers : List (Option Ident)} {names : List String},
    idents identifiers = some names →
      Lays alphabet shape (present .ident identifiers) (commas names)
  | [], names, named => by
    obtain rfl := Option.some_inj.mp named
    exact .of_ordinary rfl
  | first :: rest, names, named => by
    simp only [idents, Option.bind_eq_bind, Option.bind_eq_some_iff, Option.pure_def,
      Option.some.injEq] at named
    obtain ⟨name, isName, others, areOthers, rfl⟩ := named
    exact (lays_ident isName).commas_cons (lays_idents areOthers)

theorem ordinary_decimal (value : Int) : (Numeral.decimal value).toList.all isOrdinary := by
  have digits : ∀ {n : Nat} {c : Char}, c ∈ Nat.toDigits 10 n → isOrdinary c := by
    intro n c mem
    have digit := Nat.isDigit_of_mem_toDigits (by decide) (by decide) mem
    exact isOrdinary_of_continues ⟨fun _ => false, fun _ => false⟩
      (by simp [Ecma.Alphabet.continues, digit])
  cases value with
  | ofNat n =>
    rw [Numeral.decimal, String.toList_ofList]
    exact List.all_eq_true.mpr fun _ => digits
  | negSucc n =>
    rw [Numeral.decimal, String.toList_ofList]
    exact List.all_eq_true.mpr (List.forall_mem_cons.mpr ⟨rfl, fun _ => digits⟩)

theorem ordinary_operator {op sign : String} (isSign : operator op = some sign) :
    sign.toList.all isOrdinary := by
  rw [← spelling_ofSource?] at isSign
  obtain ⟨known, -, rfl⟩ := Option.map_eq_some_iff.mp isSign
  cases known <;> rfl

theorem lays_text (position : Position) (value : String) :
    Lays alphabet shape [.expr (.text position value)] (Script.quote value) := by
  intro _
  refine ⟨layable_quote value, zero_mem_quote.trans ?_⟩
  simp only [List.mem_singleton, exists_eq_left, Node.hasZero_text]

mutual

/-- The text of an expression is layable. It can stand in parentheses as well as outside. -/
theorem lays_expr {shape : Shape} : ∀ {e : Expr} {text : String}, expr levels e = some text →
    Lays alphabet shape [.expr e] text
  | .text position value, text, isText => by
    obtain rfl := Option.some_inj.mp isText
    exact lays_text position value
  | .control position code, text, isText => by
    rw [expr] at isText
    split at isText
    · next isCode =>
      obtain rfl := Option.some_inj.mp isText
      obtain ⟨layable, noZero⟩ :=
        layable_codeLiteral (Int.toNat_lt isCode.1 |>.mpr (Int.lt_add_one_of_le isCode.2))
      exact (Lays.of_layable layable noZero).node rfl rfl
    · cases isText
  | .integer position value, text, isText => by
    obtain rfl := Option.some_inj.mp isText
    exact (Lays.of_ordinary (ordinary_decimal value)).node rfl rfl
  | .parens position inner, text, isText => by
    simp only [expr, Option.bind_eq_bind, Option.bind_eq_some_iff, Option.pure_def,
      Option.some.injEq] at isText
    obtain ⟨own, isOwn, rfl⟩ := isText
    exact (lays_expr? isOwn).parens.node (by simp [Node.children, Node.parts, Expr.parts]) rfl
  | .binary position op left right, text, isText => by
    simp only [expr, Option.bind_eq_bind, Option.bind_eq_some_iff, Option.pure_def,
      Option.some.injEq] at isText
    obtain ⟨sign, isSign, first, isFirst, second, isSecond, rfl⟩ := isText
    have front : Lays alphabet shape _ (first ++ sign) :=
      (lays_expr? isFirst).append_word sign (ordinary_operator isSign)
    exact (front.append (lays_expr? isSecond)).node
      (by simp [Node.children, Node.parts, Expr.parts]) rfl
  | .call position target args, text, isText => by
    simp only [expr, Option.bind_eq_bind, Option.bind_eq_some_iff, Option.pure_def,
      Option.some.injEq] at isText
    obtain ⟨name, isName, texts, areTexts, rfl⟩ := isText
    have arguments : Lays alphabet shape (present .expr args)
        (if args.isEmpty && isRead levels name then "" else "(" ++ commas texts ++ ")") := by
      split
      · next read =>
        -- a name that is read has no arguments and no parentheses
        obtain rfl : args = [] := List.isEmpty_iff.mp (Bool.and_eq_true_iff.mp read).1
        exact .of_ordinary rfl
      · exact (lays_exprs areTexts).parens
    exact ((lays_name isName).append arguments).node
      (by simp [Node.children, Node.parts, Expr.parts]) rfl
  | .setOf position elements, text, isText => by
    simp only [expr, Option.bind_eq_bind, Option.bind_eq_some_iff, Option.pure_def,
      Option.some.injEq] at isText
    obtain ⟨texts, areTexts, rfl⟩ := isText
    have front : Lays alphabet shape _ ("[" ++ commas texts) :=
      (lays_setElements areTexts).word_append "[" rfl
    exact (front.append_word "]" rfl).node (by simp [Node.children, Node.parts, Expr.parts]) rfl

theorem lays_expr? {shape : Shape} : ∀ {e : Option Expr} {text : String},
    expr? levels e = some text → Lays alphabet shape (e.map Node.expr).toList text
  | some _, _, isText => lays_expr isText

theorem lays_exprs {shape : Shape} : ∀ {list : List (Option Expr)} {texts : List String},
    exprs levels list = some texts → Lays alphabet shape (present .expr list) (commas texts)
  | [], texts, areTexts => by
    obtain rfl := Option.some_inj.mp areTexts
    exact .of_ordinary rfl
  | e :: rest, texts, areTexts => by
    simp only [exprs, Option.bind_eq_bind, Option.bind_eq_some_iff, Option.pure_def,
      Option.some.injEq] at areTexts
    obtain ⟨first, isFirst, others, areOthers, rfl⟩ := areTexts
    exact (lays_expr? isFirst).commas_cons (lays_exprs areOthers)

theorem lays_setElement {shape : Shape} : ∀ {element : Option Element} {text : String},
    setElement levels element = some text →
      Lays alphabet shape (element.map Element.node).toList text
  | some (.expr _), _, isText => lays_expr isText

theorem lays_setElements {shape : Shape} : ∀ {list : List (Option Element)} {texts : List String},
    setElements levels list = some texts →
      Lays alphabet shape (present Element.node list) (commas texts)
  | [], texts, areTexts => by
    obtain rfl := Option.some_inj.mp areTexts
    exact .of_ordinary rfl
  | e :: rest, texts, areTexts => by
    simp only [setElements, Option.bind_eq_bind, Option.bind_eq_some_iff, Option.pure_def,
      Option.some.injEq] at areTexts
    obtain ⟨first, isFirst, others, areOthers, rfl⟩ := areTexts
    exact (lays_setElement isFirst).commas_cons (lays_setElements areOthers)

end

/-! ### Statements -/

theorem lays_inBraces {nodes : List Node} {text : String} (braces : Bool)
    (lays : Lays alphabet .passage nodes text) :
    Lays alphabet .passage nodes (inBraces braces text) := by
  cases braces with
  | false => exact lays
  | true => exact lays.braces

mutual

/-- The text of a statement is layable outside of parentheses. -/
theorem lays_stmt : ∀ {s : Stmt} {text : String}, stmt levels s = some text →
    Lays alphabet .passage [.stmt s] text
  | .assign position target op source, text, isText => by
    rw [stmt] at isText
    split at isText
    · simp only [Option.bind_eq_bind, Option.bind_eq_some_iff, Option.pure_def,
        Option.some.injEq] at isText
      obtain ⟨name, isName, value, isValue, rfl⟩ := isText
      have front : Lays alphabet .passage _ (name ++ "=") := (lays_ident isName).append_word "=" rfl
      exact (front.append (lays_expr? isValue)).append_semicolon.node
        (by simp [Node.children, Node.parts, Stmt.parts]) rfl
    · cases isText
  | .call position target args, text, isText => by
    simp only [stmt, Option.bind_eq_bind, Option.bind_eq_some_iff, Option.pure_def,
      Option.some.injEq] at isText
    obtain ⟨name, isName, texts, areTexts, rfl⟩ := isText
    exact ((lays_name isName).call (lays_exprs areTexts)).node
      (by simp [Node.children, Node.parts, Stmt.parts]) rfl
  | .compound value, text, isText => lays_compound isText
  | .ifThen position condition onTrue onFalse, text, isText => by
    simp only [stmt, Option.bind_eq_bind, Option.bind_eq_some_iff, Option.pure_def,
      Option.some.injEq] at isText
    obtain ⟨test, isTest, first, isFirst, second, isSecond, rfl⟩ := isText
    exact ((lays_expr? isTest).ifThen (lays_branch .semicolon rfl isFirst)
      (lays_branch (.of_ordinary rfl) rfl isSecond)).node
      (by simp [Node.children, Node.parts, Stmt.parts]) rfl
  | .tryExcept position body handlers, text, isText => by
    simp only [stmt, Option.bind_eq_bind, Option.bind_eq_some_iff, Option.pure_def,
      Option.some.injEq] at isText
    obtain ⟨tried, isTried, caught, isCaught, rfl⟩ := isText
    exact ((lays_stmts isTried).tryCatch (lays_handlers? isCaught)).node
      (by simp [Node.children, Node.parts, Stmt.parts]) rfl
  | .tryFinally position body cleanup, text, isText => by
    simp only [stmt, Option.bind_eq_bind, Option.bind_eq_some_iff, Option.pure_def,
      Option.some.injEq] at isText
    obtain ⟨tried, isTried, cleaned, isCleaned, rfl⟩ := isText
    exact ((lays_stmts isTried).tryFinally (lays_stmts isCleaned)).node
      (by simp [Node.children, Node.parts, Stmt.parts]) rfl

theorem lays_compound {inBlock : Bool} : ∀ {value : Compound} {text : String},
    compound levels inBlock value = some text →
      Lays alphabet .passage [.stmt (.compound value)] text
  | ⟨position, body⟩, text, isText => by
    simp only [compound, Option.bind_eq_bind, Option.bind_eq_some_iff, Option.pure_def,
      Option.some.injEq] at isText
    obtain ⟨own, isOwn, rfl⟩ := isText
    exact (lays_inBraces _ (lays_stmts isOwn)).node
      (by simp [Node.children, Node.parts, Stmt.parts]) rfl

theorem lays_stmts : ∀ {list : List (Option Stmt)} {text : String},
    stmts levels list = some text → Lays alphabet .passage (present .stmt list) text
  | [], text, isText => by
    obtain rfl := Option.some_inj.mp isText
    exact .of_ordinary rfl
  | none :: rest, text, isText => by
    simp [stmts, stmt?] at isText
  | some s :: rest, text, isText => by
    simp only [stmts, stmt?, Option.bind_eq_bind, Option.bind_eq_some_iff, Option.pure_def,
      Option.some.injEq] at isText
    obtain ⟨first, isFirst, others, areOthers, rfl⟩ := isText
    exact (lays_stmt isFirst).append (lays_stmts areOthers)

theorem lays_branch {absent word : String} (isAbsent : Lays alphabet .passage [] absent)
    (ordinary : word.toList.all isOrdinary) : ∀ {s : Option Stmt} {text : String},
      branch levels absent word s = some text →
        Lays alphabet .passage (s.map Node.stmt).toList text
  | none, text, isText => by
    obtain rfl := Option.some_inj.mp isText
    exact isAbsent
  | some s, text, isText => by
    simp only [branch, Option.bind_eq_bind, Option.bind_eq_some_iff, Option.pure_def,
      Option.some.injEq] at isText
    obtain ⟨own, isOwn, rfl⟩ := isText
    exact (lays_stmt isOwn).word_append word ordinary

theorem lays_handlers? : ∀ {handlers : Option Handlers} {text : String},
    handlers? levels handlers = some text →
      Lays alphabet .passage (Component.handlers handlers).nodes text
  | none, text, isText => by
    obtain rfl := Option.some_inj.mp isText
    exact .of_ordinary rfl
  | some (.all body), text, isText => by
    rw [Component.handlers, nodes_listOf]
    exact lays_stmts isText

end

/-! ### Declarations -/

theorem isSilent_kind (kind : RoutineKind) :
    ∀ node ∈ kind.parts.flatMap Component.nodes, node.isSilent := by
  cases kind with
  | procedure => exact List.forall_mem_nil _
  | function result =>
    rw [RoutineKind.parts, List.flatMap_singleton]
    exact isSilent_option (fun _ => rfl) result

/-- Each variable is set to the one of the given name. -/
theorem lays_copies {nodes : List Node} {name : String} (named : Lays alphabet .passage nodes name)
    (silent : ∀ node ∈ nodes, node.isSilent) :
    ∀ {identifiers : List (Option Ident)} {names : List String}, idents identifiers = some names →
      Lays alphabet .passage (nodes ++ present .ident identifiers)
        (String.join (names.map fun other => "var " ++ other ++ "=" ++ name ++ ";"))
  | [], names, areNames => by
    obtain rfl := Option.some_inj.mp areNames
    exact .silent (by simpa [present] using silent)
  | first :: rest, names, areNames => by
    simp only [idents, Option.bind_eq_bind, Option.bind_eq_some_iff, Option.pure_def,
      Option.some.injEq] at areNames
    obtain ⟨copy, isCopy, others, areOthers, rfl⟩ := areNames
    rw [List.map_cons, String.join_cons]
    have both := ((lays_ident isCopy).define named).append (lays_copies named silent areOthers)
    refine both.congr fun node => ?_
    simp only [present_cons, List.mem_append]
    tauto

theorem lays_varDecl : ∀ {d : Option VarDecl} {text : String}, varDecl levels d = some text →
    Lays alphabet .passage (d.map fun d => Node.decl (.var d)).toList text
  | none, text, isText => by cases isText
  | some ⟨position, [], type, value⟩, text, isText => by cases isText
  | some ⟨position, first :: others, type, none⟩, text, isText => by
    simp only [varDecl, Option.bind_eq_bind, Option.bind_eq_some_iff, Option.pure_def,
      Option.some.injEq] at isText
    obtain ⟨names, areNames, rfl⟩ := isText
    have names : Lays alphabet .passage _ (commas names) :=
      (lays_idents areNames).append_option .type (fun _ => rfl) type
    exact (names.word_append "var " rfl).append_semicolon.node
      (by simp [Node.children, Node.parts, Decl.parts]) rfl
  | some ⟨position, first :: others, type, some value⟩, text, isText => by
    simp only [varDecl, Option.bind_eq_bind, Option.bind_eq_some_iff, Option.pure_def,
      Option.some.injEq] at isText
    obtain ⟨name, isName, own, isOwn, names, areNames, rfl⟩ := isText
    have named : Lays alphabet .passage (first.map Node.ident).toList name := lays_ident isName
    have copies := lays_copies named (isSilent_option (fun _ => rfl) first) areNames
    have all := ((named.define (lays_expr isOwn)).append copies).append_option .type
      (fun _ => rfl) type
    -- the first name is written once for each of the others
    have same : ∀ node, node ∈ (first.map Node.ident).toList ++ [.expr value] ++
        ((first.map Node.ident).toList ++ present .ident others) ++ (type.map Node.type).toList ↔
          node ∈ present .ident (first :: others) ++ (type.map Node.type).toList ++
            [.expr value] := by
      intro node
      simp only [present_cons, List.mem_append]
      tauto
    exact (all.congr same).node (by simp [Node.children, Node.parts, Decl.parts]) rfl

theorem lays_constDecl : ∀ {d : Option ConstDecl} {text : String}, constDecl levels d = some text →
    Lays alphabet .passage (d.map fun d => Node.decl (.const d)).toList text
  | none, text, isText => by cases isText
  | some ⟨position, name, type, value⟩, text, isText => by
    simp only [constDecl, Option.bind_eq_bind, Option.bind_eq_some_iff, Option.pure_def,
      Option.some.injEq] at isText
    obtain ⟨own, isOwn, other, isOther, rfl⟩ := isText
    have named : Lays alphabet .passage _ own :=
      (lays_ident isOwn).append_option .type (fun _ => rfl) type
    exact (named.define (lays_expr? isOther)).node (by simp [Node.children, Node.parts, Decl.parts])
      rfl

theorem lays_concat {α : Type} {of : α → Node} {text : Option α → Option String}
    (each : ∀ {value : Option α} {own : String}, text value = some own →
      Lays alphabet .passage (value.map of).toList own) :
    ∀ {list : List (Option α)} {all : String}, concat text list = some all →
      Lays alphabet .passage (present of list) all
  | [], all, isAll => by
    obtain rfl := Option.some_inj.mp isAll
    exact .of_ordinary rfl
  | value :: rest, all, isAll => by
    simp only [concat, Option.bind_eq_bind, Option.bind_eq_some_iff, Option.pure_def,
      Option.some.injEq] at isAll
    obtain ⟨first, isFirst, others, areOthers, rfl⟩ := isAll
    exact (each isFirst).append (lays_concat each areOthers)

theorem lays_paramGroup : ∀ {group : Option ParamGroup} {text : String},
    paramGroup group = some text → Lays alphabet shape (group.map Node.param).toList text
  | none, text, isText => by cases isText
  | some ⟨position, names, type⟩, text, isText => by
    simp only [paramGroup, Option.bind_eq_bind, Option.bind_eq_some_iff, Option.pure_def,
      Option.some.injEq] at isText
    obtain ⟨own, areOwn, rfl⟩ := isText
    exact ((lays_idents areOwn).append_option .type (fun _ => rfl) type).node
      (by simp [Node.children, Node.parts]) rfl

theorem lays_paramGroups : ∀ {groups : List (Option ParamGroup)} {texts : List String},
    paramGroups groups = some texts → Lays alphabet shape (present .param groups) (commas texts)
  | [], texts, areTexts => by
    obtain rfl := Option.some_inj.mp areTexts
    exact .of_ordinary rfl
  | group :: rest, texts, areTexts => by
    simp only [paramGroups, Option.bind_eq_bind, Option.bind_eq_some_iff, Option.pure_def,
      Option.some.injEq] at areTexts
    obtain ⟨first, isFirst, others, areOthers, rfl⟩ := areTexts
    exact (lays_paramGroup isFirst).commas_cons (lays_paramGroups areOthers)

mutual

/-- The text of a declaration is layable outside of parentheses. -/
theorem lays_decl {levels : List Level} : ∀ {d : Decl} {text : String}, decl levels d = some text →
    Lays alphabet .passage [.decl d] text
  | .var d, text, isText => lays_varDecl (d := some d) isText
  | .vars position list, text, isText =>
    (lays_concat lays_varDecl isText).node (by simp [Node.children, Node.parts, Decl.parts]) rfl
  | .const d, text, isText => lays_constDecl (d := some d) isText
  | .consts position list, text, isText =>
    (lays_concat lays_constDecl isText).node (by simp [Node.children, Node.parts, Decl.parts]) rfl
  | .header h, text, isText => by
    simp only [decl, Option.bind_eq_bind, Option.bind_eq_some_iff, Option.pure_def,
      Option.some.injEq] at isText
    obtain ⟨-, -, rfl⟩ := isText
    exact .silent (List.forall_mem_singleton.mpr rfl)
  | .routine r, text, isText => lays_routine isText

theorem lays_routine {levels : List Level} : ∀ {r : Routine} {text : String},
    routine levels r = some text → Lays alphabet .passage [.decl (.routine r)] text
  | ⟨position, kind, name, params, body, scope⟩, text, isText => by
    simp only [routine, Option.bind_eq_bind, Option.bind_eq_some_iff, Option.pure_def,
      Option.some.injEq] at isText
    obtain ⟨own, isOwn, groups, areGroups, inner, isInner, rfl⟩ := isText
    have head : Lays alphabet .passage _ ("function " ++ own ++ "(" ++ commas groups ++ ")") :=
      ((lays_ident isOwn).word_append "function " rfl).append_parens (lays_paramGroups areGroups)
    exact ((head.append (lays_block? isInner)).append_silent (isSilent_kind kind)).node
      (by simp [Node.children, Node.parts, Decl.parts]) rfl

theorem lays_block {levels : List Level} {ofProgram : Bool} : ∀ {b : Block} {text : String},
    block levels ofProgram b = some text → Lays alphabet .passage [.block b] text
  | ⟨position, list, none⟩, text, isText => by
    simp only [block, Option.bind_eq_bind, Option.bind_eq_some_iff, Option.pure_def,
      Option.some.injEq] at isText
    obtain ⟨declared, isDeclared, rfl⟩ := isText
    exact (lays_inBraces _ (lays_decls isDeclared)).node (by simp [Node.children, Node.parts]) rfl
  | ⟨position, list, some body⟩, text, isText => by
    simp only [block, Option.bind_eq_bind, Option.bind_eq_some_iff, Option.pure_def,
      Option.some.injEq] at isText
    obtain ⟨declared, isDeclared, done, isDone, rfl⟩ := isText
    exact (lays_inBraces _ ((lays_decls isDeclared).append (lays_compound isDone))).node
      (by simp [Node.children, Node.parts]) rfl

theorem lays_block? {levels : List Level} {ofProgram : Bool} : ∀ {b : Option Block} {text : String},
    block? levels ofProgram b = some text → Lays alphabet .passage (b.map Node.block).toList text
  | some _, _, isText => lays_block isText

theorem lays_decls {levels : List Level} : ∀ {list : List (Option Decl)} {text : String},
    decls levels list = some text → Lays alphabet .passage (present .decl list) text
  | [], text, isText => by
    obtain rfl := Option.some_inj.mp isText
    exact .of_ordinary rfl
  | none :: rest, text, isText => by
    simp [decls, decl?] at isText
  | some d :: rest, text, isText => by
    simp only [decls, decl?, Option.bind_eq_bind, Option.bind_eq_some_iff, Option.pure_def,
      Option.some.injEq] at isText
    obtain ⟨first, isFirst, others, areOthers, rfl⟩ := isText
    exact (lays_decl isFirst).append (lays_decls areOthers)

end

/-! ### Files -/

/-- The text of a part of a unit, whichever of the two. -/
theorem lays_unitPart (of : UnitPart → Node) (isPart : ∀ part, (of part).children =
      (part.uses.map Node.uses).toList ++ present .decl part.decls)
    (other : ∀ part, (of part).isText = false) {part : Option UnitPart} {text : String}
    (isText : decls levels ((part.map UnitPart.decls).getD []) = some text) :
    Lays alphabet .passage (part.map of).toList text := by
  cases part with
  | none =>
    obtain rfl := Option.some_inj.mp isText
    exact .of_ordinary rfl
  | some part =>
    exact ((lays_decls isText).option_append .uses (fun _ => rfl) part.uses).node (isPart part)
      (other part)

/-- The text of a file is layable. -/
theorem lays_translate {file : File} {text : String} (translated : translate file = some text) :
    Lays alphabet .passage [file.node] text := by
  cases file with
  | program f =>
    have own : Lays alphabet .passage (f.block.map Node.block).toList text := lays_block? translated
    have comments : ∀ node ∈ (Component.comments f.comments).nodes, node.isSilent :=
      List.forall_mem_map.mpr fun _ _ => rfl
    have named := ((own.append_silent comments).option_append .uses (fun _ => rfl)
      f.uses).option_append .programHeader (fun _ => rfl) f.heading
    exact named.node (by simp [Node.children, Node.parts, File.node]) rfl
  | unit f =>
    simp only [translate, Option.bind_eq_bind, Option.bind_eq_some_iff, Option.pure_def,
      Option.some.injEq] at translated
    obtain ⟨first, isFirst, second, isSecond, rfl⟩ := translated
    have front : Lays alphabet .passage _ first := lays_unitPart .interfacePart
      (fun _ => by simp [Node.children, Node.parts]) (fun _ => rfl) isFirst
    have back : Lays alphabet .passage _ second := lays_unitPart .implementationPart
      (fun _ => by simp [Node.children, Node.parts]) (fun _ => rfl) isSecond
    exact ((front.append back).option_append .unitHeader (fun _ => rfl) f.heading).node
      (by simp [Node.children, Node.parts, File.node]) rfl

end Lexical

section Sample

/-- The statement that writes a text. -/
def writing (value : String) : Stmt :=
  .call .unknown (some ⟨.unknown, "WriteLn"⟩) [some (.text .unknown value)]

/-- A program that writes a text. -/
def writingProgram (value : String) : File :=
  .program { block := some ⟨.unknown, [], some ⟨.unknown, [some (writing value)]⟩⟩ }

/-- The nodes of the program. -/
def writingNodes (value : String) : List Node :=
  [(writingProgram value).node, .block ⟨.unknown, [], some ⟨.unknown, [some (writing value)]⟩⟩,
    .stmt (.compound ⟨.unknown, [some (writing value)]⟩), .stmt (writing value),
    .ident ⟨.unknown, "WriteLn"⟩, .expr (.text .unknown value)]

theorem mem_writingNodes {value : String} {node : Node}
    (within : (writingProgram value).node.Within node) : node ∈ writingNodes value := by
  refine within.mem_of_closed List.mem_cons_self ?_
  simp [writingNodes, writingProgram, writing, File.node, Node.parts, Stmt.parts, Expr.parts,
    Component.optional, Component.mandatory, Component.listOf, Component.nodes,
    ProgramComments.named, List.reduceOption]

theorem hasZero_writingProgram {value : String} :
    (writingProgram value).node.HasZero ↔ '\x00' ∈ value.toList := by
  constructor
  · rintro ⟨position, other, within, zero⟩
    obtain ⟨-, rfl⟩ : position = .unknown ∧ other = value := by
      simpa [writingNodes, writingProgram, File.node] using mem_writingNodes within
    exact zero
  · intro zero
    have inBlock : (writingProgram value).node.Within
        (.stmt (.compound ⟨.unknown, [some (writing value)]⟩)) :=
      (Node.within_of_mem_children (.head _)).trans (Node.within_of_mem_children (.head _))
    have inBody := inBlock.trans (Node.within_of_mem_children (.head _))
    exact ⟨.unknown, value, inBody.trans (Node.within_of_mem_children (.tail _ (.head _))), zero⟩

end Sample

/-- What a file is compiled to can be laid out unless a string constant of the file has a zero
character, and then the error is about a zero byte. In the laid-out text all semicolons outside
of literals are at the ends of lines. -/
theorem File.format_compiled (alphabet : Ecma.Alphabet) {file : File} {text : String}
    (identifiers : ∀ ident : Ident, file.node.Within (.ident ident) →
      IsPascalIdentifier alphabet ident.name)
    (compiled : file.compile = .ok text) :
    ((∃ result, format (.ofString text) = .ok result) ↔ ¬file.node.HasZero) ∧
      (file.node.HasZero → ∃ offset, format (.ofString text) = .error (.zeroByte offset)) ∧
      ∀ result, format (.ofString text) = .ok result → EndsLines (Piece.cut result) := by
  have lays : Lays alphabet .passage [file.node] text :=
    Lexical.lays_translate (Lexical.translate_of_compile compiled)
  obtain ⟨⟨pieces, orderly, same⟩, zero⟩ := lays (List.forall_mem_singleton.mpr identifiers)
  rw [← Utf8.zero_mem_encode, ← Utf8.ofString_eq_encode] at zero
  rw [← Utf8.ofString_eq_encode] at same
  simp only [List.mem_singleton, exists_eq_left] at zero
  by_cases has : file.node.HasZero
  · obtain ⟨offset, refused⟩ := format_of_zero (zero.mpr has)
    rw [refused]
    exact ⟨iff_of_false nofun (not_not_intro has), fun _ => ⟨offset, rfl⟩, nofun⟩
  · obtain ⟨result, laid, ends⟩ := format_of_orderly orderly same (mt zero.mp has)
    rw [laid]
    refine ⟨iff_of_true ⟨result, rfl⟩ has, fun wrong => absurd wrong has, ?_⟩
    rintro _ ⟨⟩
    exact ends

/-- Only one of the two texts can be laid out. -/
theorem File.format_writingProgram :
    (writingProgram "a;b").compile = .ok "WriteLn(\"a;b\");" ∧
      (∃ result, format (.ofString "WriteLn(\"a;b\");") = .ok result ∧
        EndsLines (Piece.cut result)) ∧
      (writingProgram "a\x00b").compile = .ok "WriteLn(\"a\x00b\");" ∧
      ∃ offset, format (.ofString "WriteLn(\"a\x00b\");") = .error (.zeroByte offset) := by
  have identifiers : ∀ value (ident : Ident), (writingProgram value).node.Within (.ident ident) →
      IsPascalIdentifier ⟨fun _ => false, fun _ => false⟩ ident.name := by
    intro value ident within
    have isLetter : ∀ c ∈ "riteLn".toList,
        Ecma.Alphabet.isLetter ⟨fun _ => false, fun _ => false⟩ c := List.all_eq_true.mp rfl
    obtain rfl : ident = ⟨.unknown, "WriteLn"⟩ := by
      simpa [writingNodes, writingProgram, File.node] using mem_writingNodes within
    exact ⟨'W', "riteLn".toList, rfl, .inl rfl, fun c mem => .inl (isLetter c mem)⟩
  have compiled : (writingProgram "a;b").compile = .ok "WriteLn(\"a;b\");" := rfl
  have compiledZero : (writingProgram "a\x00b").compile = .ok "WriteLn(\"a\x00b\");" := rfl
  obtain ⟨accepted, -, ends⟩ := File.format_compiled _ (identifiers _) compiled
  obtain ⟨-, refused, -⟩ := File.format_compiled _ (identifiers _) compiledZero
  obtain ⟨result, laid⟩ := accepted.mpr (mt hasZero_writingProgram.mp (by decide))
  exact ⟨compiled, ⟨result, laid, ends result laid⟩, compiledZero,
    refused (hasZero_writingProgram.mpr (by decide))⟩

end PascalCompiler
