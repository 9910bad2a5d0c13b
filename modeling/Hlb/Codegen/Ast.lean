/-
  Hlb.Codegen.Ast — the parts of the `parser/ast` and `errdefs` packages the code
  generator reads: kinds, the fragments of string literals and heredocs, built-in
  declarations, and the errors it returns.

  `ast` itself is not in the repository's sources here; its kinds are taken from the
  specification and the code's own uses of them (`ast.Kind(fmt.Sprintf("%s::%s",
  ast.Option, call.Name))`, the `"option::image"` keys of `Callables`). A fragment carries
  the expression of an interpolation as a parameter `α`: the code generator evaluates it
  through `EmitExpr` and reads the result with `String()`.
-/
import Mathlib.Data.List.Basic

namespace Hlb.Codegen

structure Kind where
  name : String
  deriving DecidableEq, Repr

namespace Kind

/-- Modelled from the spec: the sentinel for no type hint. -/
def none : Kind := ⟨""⟩
/-- Modelled from the spec: the kinds named in the grammar (`fs default()`, `string x()`). -/
def filesystem : Kind := ⟨"fs"⟩
def string : Kind := ⟨"string"⟩
def int : Kind := ⟨"int"⟩
def bool : Kind := ⟨"bool"⟩
def pipeline : Kind := ⟨"pipeline"⟩
def option : Kind := ⟨"option"⟩

/-- `ast.Kind(fmt.Sprintf("%s::%s", ast.Option, name))`: the options of a callee. -/
def optionOf (callee : String) : Kind := ⟨option.name ++ "::" ++ callee⟩

end Kind

/-- The node of an import declaration an `ImportPathNotExist` error is put on. -/
inductive ImportNode where
  /-- `id.DeprecatedPath`. -/
  | deprecatedPath
  /-- `id.Expr.FuncLit.Type`. -/
  | funcLitType
  /-- `id.Expr`. -/
  | expr
  deriving DecidableEq, Repr

/-- The errors the code generator returns, by `errdefs` family, and a Go run-time panic.
An error a collaborator returns (the resolver, the parser, the checker, a callable) is
`external`, named by what returned it. -/
inductive Err where
  /-- `strconv.ErrSyntax`. -/
  | errSyntax
  /-- `errdefs.WithUndefinedIdent`. -/
  | undefinedIdent (name : String)
  /-- `errdefs.WithInternalErrorf`, with its message. -/
  | internal (msg : String)
  /-- `ErrBadCast`, from a value that does not convert. -/
  | badCast
  | external (source : String)
  /-- `errors.New` or `fmt.Errorf`, with its message. -/
  | plain (msg : String)
  /-- A Go run-time panic, with its message. -/
  | panic (msg : String)
  /-- `errdefs.WithImportPathNotExist(err, node, filename)`: the error of `Open` for a file that
  does not exist, on a node of the import, with the file's name. -/
  | importPathNotExist (err : Err) (node : ImportNode) (filename : String)
  deriving DecidableEq, Repr

/-- The message of Go's run-time panic on a nil pointer dereference. -/
def nilDereference : String := "runtime error: invalid memory address or nil pointer dereference"

/-- A fragment of an interpreted string literal: text, an escape (as the lexer delivers it, a
backslash and one more character), or an interpolation. -/
inductive StringFragment (α : Type) where
  | text (s : List Char)
  | escaped (s : List Char)
  | interpolated (expr : α)
  deriving DecidableEq, Repr

inductive HeredocFragment (α : Type) where
  | spaces (s : List Char)
  | escaped (s : List Char)
  | interpolated (expr : α)
  | text (s : List Char)
  deriving DecidableEq, Repr

inductive RawHeredocFragment where
  | spaces (s : List Char)
  | text (s : List Char)
  deriving DecidableEq, Repr

/-- `ast.Heredoc`: the opener as written (`<<~END`), the terminator's text, the body. -/
structure Heredoc (α : Type) where
  start : List Char
  terminate : List Char
  fragments : List (HeredocFragment α)

/-- `ast.RawHeredoc`: the opener as written (<<~ then the quoted terminator). -/
structure RawHeredoc where
  start : List Char
  terminate : List Char
  fragments : List RawHeredocFragment

/-- `ast.BuiltinDecl`: a built-in's name and the kinds it is declared for. -/
structure BuiltinDecl where
  name : String
  kinds : List Kind
  deriving DecidableEq, Repr

end Hlb.Codegen
