import ModuleGraph.Scan
import ModuleGraph.Source.Grammar.Program

/-!
# Extracting imports

The specifiers of a program text are read off its syntax tree, in the order of its statements.  A
text without a syntax tree is searched for what looks like imports instead, and so is a text whose
reading broke off before its first statement was complete.

Calls of `require` and `import` expressions count on request.  They are looked for in expression
statements and in the initial values of variables that are not exported, through the arguments and
callees of calls, operands of `await`, elements of lists, values of properties, the parts of
conditions, right sides of assignments and parentheses.

## Main definitions

* `Source.Expr.required?`: the string of a call of `require`.
* `Source.Expr.dynamic`: the strings of all calls of `require` and `import` expressions.
* `Source.Stmt.mentions`, `Source.Stmt.specifiers`: the strings and the specifiers of a statement.
* `extract`: the specifiers of a text.
-/

namespace ModuleGraph

namespace Source

/-- The string that a call of `require` with these parts names. -/
def Expr.required? (callee : Expr) (arguments : List Expr) : Option Literal :=
  match callee, arguments with
  | .name text, .string literal :: _ => if text = "require".toList then some literal else none
  | _, _ => none

mutual

/-- The strings of the calls of `require` and the `import` expressions in an expression: of a call
first its own, then those of its arguments, then those of its callee. -/
def Expr.dynamic : Expr → List Literal
  | .call callee arguments =>
    (Expr.required? callee arguments).toList ++ Expr.dynamicAll arguments ++ callee.dynamic
  | .importCall (.string literal) => [literal]
  | .await e => e.dynamic
  | .array elements => Expr.dynamicAll elements
  | .object values => Expr.dynamicAll values
  | .conditional test yes no => test.dynamic ++ yes.dynamic ++ no.dynamic
  | .assignment right => right.dynamic
  | .paren e => e.dynamic
  | _ => []

/-- The strings of the calls of `require` and the `import` expressions in a list of expressions. -/
def Expr.dynamicAll : List Expr → List Literal
  | [] => []
  | e :: es => e.dynamic ++ Expr.dynamicAll es

end

/-- The strings that a statement names modules by, with the forms in which it does.  Expressions and
initial values are looked into only where calls count, and those of exported variables never. -/
def Stmt.mentions (dynamic : Bool) : Stmt → List (Literal × Specifier.Form)
  | .importFrom typeOnly source => [(source, if typeOnly then .typeOnly else .static)]
  | .importEquals source => source.toList.map (·, .importEquals)
  | .exportFrom source => [(source, .reExport)]
  | .expression e => if dynamic then e.dynamic.map (·, .dynamic) else []
  | .declaration initial => if dynamic then (Expr.dynamicAll initial).map (·, .dynamic) else []
  | .exportedDeclaration _ | .other => []

/-- The specifiers of a statement. -/
def Stmt.specifiers (dynamic : Bool) (s : Stmt) : List Specifier :=
  (s.mentions dynamic).map fun m => ⟨m.1.value, m.2⟩

/-- Whether a tree stands for its text: something was read, or there was nothing to read. -/
def Program.isUsable (p : Program) : Bool := p.complete || !p.body.isEmpty

/-- The specifiers of a program. -/
def Program.specifiers (dynamic : Bool) (p : Program) : List Specifier :=
  p.body.flatMap (Stmt.specifiers dynamic)

end Source

/-- The specifiers of a program text. -/
def extract (dialect : Source.Dialect) (dynamic : Bool) (text : String) : List Specifier :=
  match (Source.parse? dialect text.toList).filter Source.Program.isUsable with
  | some program => program.specifiers dynamic
  | none => Scan.specifiers text dynamic

end ModuleGraph
