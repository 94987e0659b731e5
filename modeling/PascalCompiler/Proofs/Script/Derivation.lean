import PascalCompiler.Proofs.Script.Scanning

/-!
# Scripts are programs

The tokens of a script can be derived as a program of ECMAScript 5. The only
identifiers among them are the names in the tree of the script and `$e`, which
stands nowhere but behind `catch`.

## Main definitions

* `Script.Guarded`: which identifiers are among the tokens

## Main results

* `Script.Expr.Valid.chain`, `Script.Stmt.Valid.derives`, `Script.Stmt.ValidElement.derives`: the
  tokens of a tree can be derived
* `Script.Stmt.ValidElement.guarded`: the identifiers among the tokens of a tree
* `Script.tokens_print`, `Script.derives_program`, `Script.guarded_program`: whole scripts
-/

namespace PascalCompiler.Script

open Ecma

/-! ### Derivations -/

section Derivations

variable {named : String → Prop}

/-- An expression is made of operands and operators. -/
theorem Expr.Valid.chain {e : Expr} (valid : e.Valid named) : Chain e.tokens := by
  induction valid with
  | text value => exact .one (.operand (.member (.text _)))
  | code _ => exact .one (.operand (.member (.text _)))
  | integer value =>
    cases value with
    | ofNat n => exact .one (.operand (.member (.number _)))
    | negSucc n => exact .one (.negation (.operand (.member (.number _))))
  | name _ => exact .one (.operand (.member (.identifier _)))
  | @call callee args _ _ ih =>
    have each : ∀ arg ∈ tokensAll args, Derives .assignment arg :=
      forall_mem_tokensAll.mpr fun arg mem => (ih arg mem).derives
    exact .one (.operand (.call (.identifier callee) each))
  | parens _ ih => exact .one (.operand (.member (.group (.expression ih.derives))))
  | @binary op _ _ _ _ first second =>
    have isOperator : op.spelling ∈ operators := by cases op <;> decide
    exact first.join isOperator second
  | @array elements _ ih =>
    have each : ∀ element ∈ tokensAll elements, Derives .assignment element :=
      forall_mem_tokensAll.mpr fun element mem => (ih element mem).derives
    exact .one (.operand (.member (.array each)))

theorem Expr.Valid.derives {e : Expr} (valid : e.Valid named) : Derives .expression e.tokens :=
  .expression valid.chain.derives

/-- The tokens are those of phrases in a row. -/
def Row (phrase : Category) (tokens : List Token) : Prop :=
  ∃ items : List (List Token), (∀ item ∈ items, Derives phrase item) ∧ items.flatten = tokens

theorem Row.single {phrase : Category} {tokens : List Token} (derives : Derives phrase tokens) :
    Row phrase tokens :=
  ⟨[tokens], List.forall_mem_singleton.mpr derives, List.flatten_singleton⟩

theorem Row.flatten {phrase : Category} {list : List Stmt}
    (each : ∀ s ∈ list, Row phrase s.tokens) : Row phrase (Stmt.tokensAll list).flatten := by
  induction list with
  | nil => exact ⟨[], List.forall_mem_nil _, rfl⟩
  | cons s rest ih =>
    obtain ⟨here, behind⟩ := List.forall_mem_cons.mp each
    obtain ⟨items, derives, same⟩ := here
    obtain ⟨others, derive, all⟩ := ih behind
    refine ⟨items ++ others, List.forall_mem_append.mpr ⟨derives, derive⟩, ?_⟩
    rw [List.flatten_append, same, all, Stmt.tokensAll, List.flatten_cons]

theorem derives_braced {list : List Stmt} (each : ∀ s ∈ list, Row .statement s.tokens) :
    Derives .block (braced (Stmt.tokensAll list)) := by
  obtain ⟨items, derives, same⟩ := Row.flatten each
  rw [braced, ← same]
  exact .block derives

/-- An identifier at the beginning is the beginning of an expression statement. -/
theorem derives_evaluation {name : String} {tokens : List Token}
    (expression : Derives .expression (.identifier name :: tokens)) :
    Derives .statement (.identifier name :: (tokens ++ [.punctuator ";"])) :=
  .evaluation expression (by simp) (by simp)

/-- The tokens of a statement are statements in a row, and just one unless braces are
left out. -/
theorem Stmt.Valid.derives {s : Stmt} (valid : s.Valid named) :
    Row .statement s.tokens ∧ (s.isSingle → Derives .statement s.tokens) := by
  have single {s : Stmt} (derives : Derives .statement s.tokens) :
      Row .statement s.tokens ∧ (s.isSingle → Derives .statement s.tokens) :=
    ⟨.single derives, fun _ => derives⟩
  induction valid with
  | empty => exact single .empty
  | @declare list nonempty _ =>
    have each : ∀ item ∈ list.map fun name => [Token.identifier name],
        Derives .variableDeclaration item :=
      List.forall_mem_map.mpr fun name _ => .declared name
    exact single (.variables (by simpa using nonempty) each)
  | @define name value _ valid =>
    have item :
        Derives .variableDeclaration (.identifier name :: .punctuator "=" :: value.tokens) :=
      .initialised valid.chain.derives
    have all := Derives.variables (List.cons_ne_nil _ _) (List.forall_mem_singleton.mpr item)
    exact single (by simpa [separated, tokens] using all)
  | @assign name value _ valid =>
    have assignment :
        Derives .expression ([.identifier name] ++ .punctuator "=" :: value.tokens) :=
      .expression (.assign (.member (.identifier name)) valid.chain.derives)
    exact single (derives_evaluation assignment)
  | @call callee args _ each =>
    have inside : ∀ arg ∈ Expr.tokensAll args, Derives .assignment arg :=
      Expr.forall_mem_tokensAll.mpr fun arg mem => (each arg mem).chain.derives
    have call : Chain ([.identifier callee] ++ parenthesised (separated (Expr.tokensAll args))) :=
      .one (.operand (.call (.identifier callee) inside))
    exact single (derives_evaluation (.expression call.derives))
  | @block braces body _ ih =>
    cases braces with
    | false => exact ⟨.flatten fun s mem => (ih s mem).1, by simp [isSingle]⟩
    | true => exact single (.nested (derives_braced fun s mem => (ih s mem).1))
  | ifThen test isSingle _ ih =>
    have all := Derives.ifThen test.derives (ih.2 isSingle)
    exact single (by simpa [tokens, parenthesised] using all)
  | ifElse test isSingle _ isSingleElse _ ih ihElse =>
    have all := Derives.ifElse test.derives (ih.2 isSingle) (ihElse.2 isSingleElse)
    exact single (by simpa [tokens, parenthesised] using all)
  | tryCatch _ _ ih ihHandler =>
    exact single (.tryCatch (derives_braced fun s mem => (ih s mem).1)
      (derives_braced fun s mem => (ihHandler s mem).1))
  | tryFinally _ _ ih ihCleanup =>
    exact single (.tryFinally (derives_braced fun s mem => (ih s mem).1)
      (derives_braced fun s mem => (ihCleanup s mem).1))

/-- The tokens of statements and functions may stand in a program. -/
theorem Stmt.ValidElement.derives {s : Stmt} (valid : s.ValidElement named) :
    Row .sourceElement s.tokens := by
  induction valid with
  | statement valid =>
    obtain ⟨items, derives, same⟩ := valid.derives.1
    exact ⟨items, fun item mem => .statement (derives item mem), same⟩
  | row _ ih => exact .flatten ih
  | @function name params body _ _ _ _ ih =>
    obtain ⟨items, derives, same⟩ := Row.flatten ih
    have all := Derives.declaration (.function name params.flatten derives)
    rw [same] at all
    exact .single (by simpa [tokens, parenthesised, braced, nameTokens] using all)

end Derivations

/-! ### Identifiers -/

/-- Every identifier among the tokens is of the given kind, or it is the name of
the exception that a handler catches, where it is bound. -/
def Guarded (named : String → Prop) (tokens : List Token) : Prop :=
  ∀ before name after, tokens = before ++ .identifier name :: after →
    named name ∨ name = "$e" ∧ [.keyword "catch", .punctuator "("] <:+ before

namespace Guarded

variable {named : String → Prop} {first second : List Token}

theorem nil : Guarded named [] := by
  intro before name after same
  cases before <;> cases same

theorem append (left : Guarded named first) (right : Guarded named second) :
    Guarded named (first ++ second) := by
  intro before name after same
  rcases List.append_eq_append_iff.mp same with ⟨between, rfl, behind⟩ | ⟨between, rfl, behind⟩
  · -- the identifier is one of the second list
    rcases right between name after behind with isNamed | ⟨isException, bound⟩
    · exact .inl isNamed
    · exact .inr ⟨isException, List.suffix_append_of_suffix bound⟩
  · cases between with
    | nil =>
      -- it is the first one there, so nothing binds it in that list
      rcases right [] name after behind.symm with isNamed | ⟨-, bound⟩
      · exact .inl isNamed
      · exact absurd (List.suffix_nil.mp bound) (by simp)
    | cons token between =>
      obtain ⟨rfl, -⟩ := List.cons.inj behind
      exact left before name between rfl

theorem cons {token : Token} (other : ∀ name, token ≠ .identifier name)
    (rest : Guarded named second) : Guarded named (token :: second) := by
  have single : Guarded named [token] := by
    intro before name after same
    cases before with
    | nil => exact absurd (List.cons.inj same).1 (other name)
    | cons _ before => exact absurd (List.cons.inj same).2.symm (by simp)
  exact single.append rest

theorem punctuator (sign : String) (rest : Guarded named second) :
    Guarded named (.punctuator sign :: second) :=
  rest.cons nofun

theorem keyword (word : String) (rest : Guarded named second) :
    Guarded named (.keyword word :: second) :=
  rest.cons nofun

theorem identifier {name : String} (isName : named name) (rest : Guarded named second) :
    Guarded named (.identifier name :: second) := by
  have single : Guarded named [.identifier name] := by
    intro before other after same
    cases before with
    | nil =>
      cases same
      exact .inl isName
    | cons _ before => exact absurd (List.cons.inj same).2.symm (by simp)
  exact single.append rest

theorem flatten {items : List (List Token)} (each : ∀ item ∈ items, Guarded named item) :
    Guarded named items.flatten := by
  induction items with
  | nil => exact nil
  | cons item items ih =>
    obtain ⟨here, others⟩ := List.forall_mem_cons.mp each
    exact here.append (ih others)

theorem separated {items : List (List Token)} (each : ∀ item ∈ items, Guarded named item) :
    Guarded named (separated items) := by
  induction items with
  | nil => exact nil
  | cons item items ih =>
    obtain ⟨here, others⟩ := List.forall_mem_cons.mp each
    cases items with
    | nil => simpa [Ecma.separated] using here
    | cons next items =>
      rw [Ecma.separated, List.intercalate_cons_cons, List.append_assoc]
      exact here.append ((ih others).punctuator ",")

theorem parenthesised (inner : Guarded named first) : Guarded named (parenthesised first) :=
  (inner.append (nil.punctuator ")")).punctuator "("

theorem braced {items : List (List Token)} (each : ∀ item ∈ items, Guarded named item) :
    Guarded named (braced items) :=
  ((flatten each).append (nil.punctuator "\x7d")).punctuator "\x7b"

theorem nameTokens {names : List String} (each : ∀ name ∈ names, named name) :
    Guarded named (nameTokens names) :=
  separated (List.forall_mem_map.mpr fun name mem => nil.identifier (each name mem))

/-- A handler binds the exception. -/
theorem handler (rest : Guarded named second) :
    Guarded named (.keyword "catch" :: (Script.parenthesised [.identifier "$e"] ++ second)) := by
  have bound : Guarded named [.keyword "catch", .punctuator "(", .identifier "$e"] := by
    intro before name after same
    -- the identifier is the third of the three tokens
    rcases before with _ | ⟨_, _ | ⟨_, _ | ⟨_, before⟩⟩⟩
    · cases same
    · cases same
    · cases same
      exact .inr ⟨rfl, List.suffix_rfl⟩
    · exact absurd (congrArg List.length same) (by simp)
  exact bound.append (rest.punctuator ")")

end Guarded

section Identifiers

variable {named : String → Prop}

theorem Expr.Valid.guarded {e : Expr} (valid : e.Valid named) : Guarded named e.tokens := by
  induction valid with
  | text value => exact Guarded.nil.cons nofun
  | code _ => exact Guarded.nil.cons nofun
  | integer value =>
    cases value with
    | ofNat n => exact Guarded.nil.cons nofun
    | negSucc n => exact .punctuator "-" (Guarded.nil.cons nofun)
  | name isName => exact .identifier isName .nil
  | @call callee args isName _ ih =>
    exact .identifier isName (.parenthesised (.separated (forall_mem_tokensAll.mpr ih)))
  | parens _ ih => exact .parenthesised ih
  | binary _ _ first second => exact first.append (.punctuator _ second)
  | @array elements _ ih =>
    have each : Guarded named (separated (tokensAll elements)) :=
      .separated (forall_mem_tokensAll.mpr ih)
    exact .punctuator "[" (each.append (.punctuator "]" .nil))

theorem guarded_braced {list : List Stmt} (each : ∀ s ∈ list, Guarded named s.tokens) :
    Guarded named (braced (Stmt.tokensAll list)) :=
  .braced (Stmt.forall_mem_tokensAll.mpr each)

theorem Stmt.Valid.guarded {s : Stmt} (valid : s.Valid named) : Guarded named s.tokens := by
  have semicolon : Guarded named [.punctuator ";"] := .punctuator ";" .nil
  induction valid with
  | empty => exact semicolon
  | declare _ each => exact .keyword "var" ((Guarded.nameTokens each).append semicolon)
  | define isName valid =>
    exact .keyword "var" (.identifier isName (.punctuator "=" (valid.guarded.append semicolon)))
  | assign isName valid =>
    exact .identifier isName (.punctuator "=" (valid.guarded.append semicolon))
  | @call callee args isName each =>
    have inside : ∀ arg ∈ Expr.tokensAll args, Guarded named arg :=
      Expr.forall_mem_tokensAll.mpr fun arg mem => (each arg mem).guarded
    exact .identifier isName ((Guarded.parenthesised (.separated inside)).append semicolon)
  | @block braces body _ ih =>
    cases braces with
    | false => exact .flatten (Stmt.forall_mem_tokensAll.mpr ih)
    | true => exact guarded_braced ih
  | ifThen test _ _ ih => exact .keyword "if" ((Guarded.parenthesised test.guarded).append ih)
  | ifElse test _ _ _ _ ih ihElse =>
    exact .keyword "if"
      ((Guarded.parenthesised test.guarded).append (ih.append (.keyword "else" ihElse)))
  | tryCatch _ _ ih ihHandler =>
    exact .keyword "try" ((guarded_braced ih).append (.handler (guarded_braced ihHandler)))
  | tryFinally _ _ ih ihCleanup =>
    exact .keyword "try"
      ((guarded_braced ih).append (.keyword "finally" (guarded_braced ihCleanup)))

/-- The identifiers of a statement or function are the names in it and those of
caught exceptions. -/
theorem Stmt.ValidElement.guarded {s : Stmt} (valid : s.ValidElement named) :
    Guarded named s.tokens := by
  induction valid with
  | statement valid => exact valid.guarded
  | row _ ih => exact .flatten (Stmt.forall_mem_tokensAll.mpr ih)
  | @function name params body isName _ isParam _ ih =>
    have each : ∀ param ∈ params.flatten, named param := by
      intro param mem
      obtain ⟨group, isGroup, mem⟩ := List.mem_flatten.mp mem
      exact isParam group isGroup param mem
    exact .keyword "function" (.identifier isName
      ((Guarded.parenthesised (.nameTokens each)).append (guarded_braced ih)))

end Identifiers

/-! ### Scripts -/

section Scripts

variable {named : String → Prop} {script : List Stmt}
  (valid : ∀ s ∈ script, s.ValidElement named)
include valid

/-- The text of a script has the tokens of its statements and functions. -/
theorem tokens_print {alphabet : Alphabet} (names : ∀ name, named name → IsName alphabet name) :
    Tokens alphabet (print script).toList (Stmt.tokensAll script).flatten := by
  have stands := stands_flatMap fun s mem => (valid s mem).stands names
  rw [print, Stmt.toList_printAll, Stmt.tokensAll_eq]
  simpa using stands [] [] .nil

/-- The tokens of a script are a program. -/
theorem derives_program : Derives .program (Stmt.tokensAll script).flatten := by
  obtain ⟨items, derives, same⟩ := Row.flatten fun s mem => (valid s mem).derives
  rw [← same]
  exact .program derives

theorem guarded_program : Guarded named (Stmt.tokensAll script).flatten :=
  .flatten (Stmt.forall_mem_tokensAll.mpr fun s mem => (valid s mem).guarded)

end Scripts

end PascalCompiler.Script
