/-
  Hlb.Codegen.Program — what the code generator walks: the expressions, statements and
  declarations of a checked module, the objects of its scopes with what they carry, and the
  state import resolution changes, with every module's objects and directory in full.

  `ast` is not in the sources here. The shapes are the ones the code reads
  (`expr.FuncLit`, `stmt.Call`, `call.WithClause`, `call.BindClause`, `fun.Params.Fields()`,
  `param.Modifier`, `id.Expr`, `id.DeprecatedPath`, `obj.Data`, `imod.Directory`,
  `b.Bind.Closure`, the literals' cases and fragments); the rest is from the specification.
  A literal other than a string or a heredoc is a parameter `L`, and a directory a
  parameter `D`.

  `Hlb.Codegen.Imports` models the state on the kinds of the objects alone. Here the objects
  carry their declarations, and `State.view` forgets them.

  A function's body runs in the scope `EmitFuncDecl` builds for the call, whose parent is the
  function's own scope, `fun.Scope`, which the checker seeds with every parameter; its parent
  is the module's scope. The two function scopes hold parameters only (`Frame`).

  Proved:
  - `lookup_view`, `install_view`: lookup and install commute with forgetting, so every
    property of installs proved in `Hlb.Codegen.Imports` holds here.
  - `lookup_eq_importDecl`: an import object found from any scope is one of its module's.
-/
import Hlb.Codegen.Imports

namespace Hlb.Codegen.Eval

/-- `ast.IdentExpr`: the identifier and, for `m.foo`, the member `foo` (`ie.Reference`). -/
structure IdentExpr where
  ident : String
  reference : Option String
  deriving DecidableEq, Repr

/-- A parameter, `ast.Field`: its name, and whether it has a `Modifier`. -/
structure Field where
  name : String
  modifier : Bool
  deriving DecidableEq, Repr

mutual

inductive Expr (L : Type) where
  /-- `ast.FuncLit`: a block of a kind. -/
  | funcLit (kind : Kind) (stmts : List (Stmt L))
  | basicLit (lit : BasicLit L)
  /-- `ast.CallExpr`: the callee, its `Signature` (the kinds of its arguments), and the
  arguments. -/
  | callExpr (name : IdentExpr) (signature : List Kind) (args : List (Expr L))

/-- `ast.BasicLit`: a decimal, numeric, bool or raw string literal is an `L`; an interpreted
string and a heredoc have fragments, whose interpolations are expressions. -/
inductive BasicLit (L : Type) where
  | plain (lit : L)
  | str (fragments : List (StringFragment (Expr L)))
  | heredoc (h : Heredoc (Expr L))
  | rawHeredoc (h : RawHeredoc)

/-- A statement of a block. -/
inductive Stmt (L : Type) where
  /-- `ast.CallStmt`: the callee, `Signature`, the arguments, the `with` clause, and the
  bind clause, by identity. -/
  | call (name : IdentExpr) (signature : List Kind) (args : List (Expr L))
      (withClause : Option (Expr L)) (bindClause : Option Nat)
  | expr (e : Expr L)

end

/-- `ast.ImportDecl`: the expression that names the module, and whether the declaration has a
`DeprecatedPath`. -/
structure ImportDecl (L : Type) where
  expr : Expr L
  deprecatedPath : Bool

/-- `ast.FuncDecl`: its name, its parameters, and its body, a block of a kind (`nil` when it
has none). -/
structure FuncDecl (L : Type) where
  name : String
  params : List Field
  body : Option (Kind × List (Stmt L))

/-- `ast.Binding`: the bind clause it belongs to, by identity, its name, and the closure of
the bind clause (`b.Bind.Closure`). -/
structure Binding (L : Type) where
  bind : Nat
  name : String
  closure : FuncDecl L

/-- A scope object, by its `Node`, with what the code generator reads of it. -/
inductive Obj (L V : Type) where
  /-- An import declaration; the module it imports is in the state's `data`. -/
  | importDecl (id : ImportDecl L)
  | builtinDecl (bd : BuiltinDecl)
  | funcDecl (fd : FuncDecl L)
  /-- A bind clause, with its bindings: `TargetBinding(name)` is the one named `name`. -/
  | bindClause (bindings : List (Binding L))
  /-- A parameter in the scope of a call, with its `Data`, the argument bound to it. -/
  | field (data : V)
  /-- A parameter as the checker inserts it into its function's scope, with no `Data`. -/
  | param (f : Field)
  | other

variable {L V : Type}

/-- The kind of the node, all that `Hlb.Codegen.Imports` sees of an object. -/
def Obj.node : Obj L V → Node
  | .importDecl _ => .importDecl
  | .builtinDecl _ => .builtinDecl
  | .funcDecl _ => .funcDecl
  | .bindClause _ => .bindClause
  | .field _ | .param _ => .field
  | .other => .other

abbrev Table (L V : Type) := String → Option (Obj L V)

def Table.view (t : Table L V) : Objects := fun n => (t n).map Obj.node

/-- An object of a function's scope: a parameter bound to its argument, in the scope of a
call, or the parameter as the checker declares it. -/
inductive Param (V : Type) where
  | bound (data : V)
  | declared (f : Field)

def Param.obj : Param V → Obj L V
  | .bound data => .field data
  | .declared f => .param f

/-- The objects of a function's scope, by name: parameters only. -/
abbrev Frame (V : Type) := String → Option (Param V)

/-- `scope.Insert` of a parameter: it replaces any object of its name. -/
def Frame.insert (t : Frame V) (name : String) (p : Param V) : Frame V :=
  fun n => if n = name then some p else t n

/-- A scope: its module, and the function scopes between it and the module's scope, the
innermost first (`Lookup` walks outward). -/
structure Scope (L V : Type) where
  module : Nat
  frames : List (Frame V)

/-- What the function scopes of `sc` hold: the innermost object of each name. -/
def Scope.locals (sc : Scope L V) : Table L V := fun n =>
  (sc.frames.findSome? (· n)).map Param.obj

def Scope.view (sc : Scope L V) : Codegen.Scope := ⟨sc.module, sc.locals.view⟩

/-- The scope of module `k`, `imod.Scope`. -/
def moduleScope (k : Nat) : Scope L V := ⟨k, []⟩

/-- `ast.Module`: the objects of its scope, and `Directory`, the directory it was read from. -/
structure Module (L V D : Type) where
  objects : Table L V
  directory : D

/-- The parsed modules, numbered in the order they were parsed, and the `Data` of the
objects of their import declarations. -/
structure State (L V D : Type) where
  modules : List (Module L V D)
  data : Nat → String → Option Nat

namespace State

variable {D : Type}

def view (s : State L V D) : Codegen.State := ⟨s.modules.map (·.objects.view), s.data⟩

/-- `scope.Lookup(name)`: the function scope first, then the module's. -/
def lookup (s : State L V D) (sc : Scope L V) (name : String) : Option (Obj L V) :=
  match sc.locals name with
  | some o => some o
  | none => s.modules[sc.module]?.bind (·.objects name)

/-- `obj.Data = imod`: the module just parsed, `imod`, stored in the `Data` of the import
object `name` of module `m`. -/
def install (s : State L V D) (m : Nat) (name : String) (imod : Module L V D) : State L V D where
  modules := s.modules ++ [imod]
  data m' n' := if m' = m ∧ n' = name then some s.modules.length else s.data m' n'

@[simp] theorem install_modules (s : State L V D) (m : Nat) (name : String) (imod : Module L V D) :
    (s.install m name imod).modules = s.modules ++ [imod] := rfl

theorem install_data (s : State L V D) (m : Nat) (name : String) (imod : Module L V D) (m' : Nat)
    (n' : String) :
    (s.install m name imod).data m' n' =
      if m' = m ∧ n' = name then some s.modules.length else s.data m' n' := rfl

/-- An import object is one of the module's: a function scope holds parameters only. -/
theorem lookup_eq_importDecl {s : State L V D} {sc : Scope L V} {name : String}
    {id : ImportDecl L} (h : s.lookup sc name = some (.importDecl id)) :
    ∃ mod, s.modules[sc.module]? = some mod ∧ mod.objects name = some (.importDecl id) := by
  unfold lookup at h
  rcases hl : sc.locals name with _ | o <;> rw [hl] at h
  · exact Option.bind_eq_some.1 h
  · cases h
    obtain ⟨p, -, hp⟩ := Option.map_eq_some'.1 hl
    cases p <;> cases hp

end State

/-! ## Forgetting what objects carry -/

variable {D : Type}

@[simp] theorem view_modules (s : State L V D) : s.view.modules = s.modules.map (·.objects.view) :=
  rfl

@[simp] theorem view_data (s : State L V D) : s.view.data = s.data := rfl

theorem lookup_view (s : State L V D) (sc : Scope L V) (name : String) :
    (s.lookup sc name).map Obj.node = s.view.lookup sc.view name := by
  unfold State.lookup Codegen.State.lookup
  simp only [Scope.view, Table.view]
  cases sc.locals name with
  | some o => rfl
  | none =>
    simp only [Option.map_none', view_modules, List.getElem?_map]
    cases s.modules[sc.module]? <;> rfl

theorem install_view (s : State L V D) (m : Nat) (name : String) (imod : Module L V D) :
    (s.install m name imod).view = s.view.install m name imod.objects.view := by
  simp only [State.view, State.install, Codegen.State.install, List.map_append, List.map_cons,
    List.map_nil, List.length_map]

end Hlb.Codegen.Eval
