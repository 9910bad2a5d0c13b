/-
  Hlb.Codegen.Eval — the code generator's walk of a checked module: `Generate`, `EmitExpr`,
  `EmitFuncLit`, `EmitCallExpr`, `Evaluate`, `EmitIdentExpr`, `EmitFuncDecl`,
  `EmitBasicLit` with `EmitStringLit`, `EmitHeredoc` and `EmitRawHeredoc`, `EmitBinding`,
  `EmitBlock`, `EmitCallStmt`, `lookupCall` and `EmitImport`.

  A call, in an expression or as a statement, is set on the register with `SetAsync`: the
  closure resolves the callee (`lookupCall`), evaluates the arguments, each into a register
  of its own that is read at once, and dispatches on the callee's object. A built-in sets
  `EmitBuiltinDecl` on the register; a function binds its parameters in a scope of its own
  and emits its body; an import goes on in the imported module's scope. A block feeds every
  statement into the same register, in order. A string or heredoc literal is read a fragment
  at a time as `Hlb.Codegen.StringLit` and `Hlb.Codegen.Heredoc` read it, and each
  interpolation is evaluated by the walk, into a register of its own.

  An import is resolved the first time a call names it (`lookupCall`): `EmitImport`
  evaluates its expression with the walk itself, in the importing module's scope, reads the
  module the value names, parses and checks it, and the module is stored in the import's
  `Data` before `CheckReferences` runs.

  What the walk reads besides the program is a parameter (`Host`): the values `Set` makes of
  literals, `Value`'s methods, `dedent.Dedent`, the debugger, the resolver, the directories'
  files, the parser and the checker, and the built-ins' `Dispatch`. The walk is bounded by
  fuel; the code has no bound (a function that calls itself does not end).

  The properties of the walk are in `Hlb.Codegen.EvalProofs`.
-/
import Hlb.Codegen.Register
import Hlb.Codegen.Program
import Hlb.Codegen.Builtin
import Hlb.Codegen.StringLit
import Hlb.Codegen.Heredoc
import Hlb.Go.Template

namespace Hlb.Codegen.Eval

open Hlb.Go EvalM

/-- What the walk reads besides the program. `V` is `Value`, `O` an option, `Q` a request,
`R` a `reflect.Value` and `D` a `Directory`. -/
structure Host (L V O Q R D : Type) where
  /-- The value `ret.Set` makes of a decimal, numeric, bool or raw string literal. -/
  plainLit : L → V
  /-- The value `ret.Set` makes of a string, by its bytes. -/
  ofString : List Nat → V
  /-- `dedent.Dedent`. -/
  dedent : List Char → List Char
  /-- What `NewRegister(ctx)` holds, for the return type of the context. -/
  zero : Kind → V
  /-- `Value.Kind()`. -/
  kind : V → Kind
  /-- `Value.Option()`. -/
  option : V → Except Err (List O)
  /-- The value `ret.Set(opts)` sets for an option list. -/
  ofOption : List O → V
  /-- `Value.String()`. -/
  string : V → Except Err String
  /-- `Value.Request()`. -/
  request : V → Except Err Q
  /-- `solver.Parallel`. -/
  parallel : List Q → Q
  /-- `NewValue(ctx, obj.Data)`. -/
  newValue : V → Except Err V
  /-- `NewValue(ctx, nil)`, for a parameter object with no `Data`. -/
  newValueNil : Except Err V
  /-- `call.Breakpoint(returnType)`. -/
  breakpoint : IdentExpr → Kind → Bool
  /-- `breakpointCommand(command)` as an option. -/
  breakpointCommand : List String → O
  /-- `cg.Debug(ctx, scope, node, ret, opts)`; the node is a name, `none` for a module. -/
  debug : Scope L V → Option String → Reg V → List O → Except Err Unit
  /-- `val.Filesystem()`, then `cg.resolver.Resolve(ctx, id, fs)`: the directory an import by
  a filesystem reads from. -/
  resolve : ImportDecl L → V → Except Err D
  /-- `ModuleFilename`, the file an import by a filesystem reads. -/
  moduleFilename : String
  /-- `dir.Open(filename)`, with what is read from it. -/
  dirOpen : D → String → Except Err String
  /-- `errdefs.IsNotExist`. -/
  isNotExist : Err → Bool
  /-- `parser.Parse`: the module's objects. -/
  parse : String → Except Err (Table L V)
  /-- `checker.SemanticPass`. -/
  semanticPass : Table L V → Except Err Unit
  /-- `checker.Check`. -/
  check : Table L V → Except Err Unit
  /-- `checker.CheckReferences(mod, name)`, for the import `name` of the module `mod`, with the
  objects of the module its `Data` holds. -/
  checkReferences : Table L V → String → Table L V → Except Err Unit
  dispatch : Dispatch V O (Binding L) R

variable {L V O Q R D : Type} (H : Host L V O Q R D)

/-- Where `EmitImport` reads the module that the value `val` names from, for an import of a
module in `dir`: `ModuleFilename` in the directory the resolver gives for a filesystem, the
file a string names in `dir`, and `""` in `dir` for a value of any other kind. -/
def importPath (dir : D) (id : ImportDecl L) (val : V) : Except Err (D × String) :=
  if H.kind val = Kind.filesystem then (fun d => (d, H.moduleFilename)) <$> H.resolve id val
  else if H.kind val = Kind.string then (fun f => (dir, f)) <$> H.string val
  else .ok (dir, "")

/-- The node an `ImportPathNotExist` error is put on: the deprecated path if there is one,
else the type of a function literal, else the expression. -/
def importNode (id : ImportDecl L) : ImportNode :=
  if id.deprecatedPath then .deprecatedPath
  else
    match id.expr with
    | .funcLit _ _ => .funcLitType
    | _ => .expr

/-- The rest of `EmitImport`: the module in the file `filename` of `dir`, parsed and checked.
`linter.Lint` runs between the two checks, and its error is dropped. -/
def loadModule (id : ImportDecl L) (dir : D) (filename : String) : Except Err (Module L V D) :=
  match H.dirOpen dir filename with
  | .error err =>
    .error (if H.isNotExist err then .importPathNotExist err (importNode id) filename else err)
  | .ok rc => do
    let objs ← H.parse rc
    H.semanticPass objs
    H.check objs
    pure ⟨objs, dir⟩

/-- `fun.Scope`, as the checker seeds it (from the specification): every parameter, with a
modifier or not, and no `Data`. -/
def paramScope (params : List Field) : Frame V :=
  params.foldl (fun t p => t.insert p.name (.declared p)) fun _ => none

/-- The scope `NewScope(fun, fun.Scope)` of a call: every parameter that has no modifier,
bound to its argument. -/
def bindParams (params : List Field) (args : List V) : Frame V :=
  (params.zip args).foldl
    (fun t pa => if pa.1.modifier then t else t.insert pa.1.name (.bound pa.2)) fun _ => none

/-- `EmitIdentExpr` at a parameter of value `val`: an option is appended to the options the
register holds, anything else is set. -/
def emitField (val : V) (ret : Reg V) : EvalM (State L V D) (Reg V) :=
  match ret with
  | .ok cur =>
    if H.kind val ≠ Kind.option ∨ H.kind cur ≠ Kind.option then pure (Reg.set val ret)
    else do
      let retOpts ← lift (H.option cur)
      let valOpts ← lift (H.option val)
      pure (Reg.set (H.ofOption (retOpts ++ valOpts)) ret)
  | .error _ => pure (Reg.set val ret)

/-- The piece one fragment of a string literal adds (`EmitStringLit`'s switch), where
`interpolate` reads an interpolation. -/
def stringLitPiece (interpolate : Expr L → EvalM (State L V D) String) :
    StringFragment (Expr L) → EvalM (State L V D) (List Nat)
  | .text s => pure (encode s)
  | .escaped e => lift (escapedPiece e)
  | .interpolated x => (fun str => encode str.toList) <$> interpolate x

/-- The piece one fragment of a heredoc adds (`EmitHeredoc`'s switch). -/
def heredocLitPiece (interpolate : Expr L → EvalM (State L V D) String) :
    HeredocFragment (Expr L) → EvalM (State L V D) (List Char)
  | .spaces s => pure s
  | .escaped e => lift (heredocEscapedPiece e)
  | .interpolated x => (fun str => str.toList) <$> interpolate x
  | .text s => pure s

/-- The binding `EmitCallStmt` passes on: `b`, when the call is the one it binds. -/
def passBinding (bindClause : Option Nat) : Option (Binding L) → Option (Binding L)
  | some b => if bindClause = some b.bind then some b else none
  | none => none

mutual

def emitExpr : Nat → Kind → Scope L V → Expr L → Option (Binding L) → Reg V →
    EvalM (State L V D) (Reg V)
  | 0, _, _, _, _, _ => outOfFuel
  | n + 1, _, sc, .funcLit kind stmts, b, ret => emitBlock n sc (some (kind, stmts)) b ret
  | n + 1, rt, sc, .basicLit lit, _, ret => emitBasicLit n rt sc lit ret
  | n + 1, rt, sc, .callExpr name signature args, _, ret =>
    setAsync ret fun v => do
      lookupCall n sc name.ident
      emitCallExpr n rt sc name signature args (Reg.set v (newRegister H.zero rt))

/-- `CodeGen.EmitBasicLit`, in a context of return type `rt`, with `EmitStringLit`,
`EmitHeredoc` and `EmitRawHeredoc`: the pieces of the fragments, in order, and the value of
their join set. -/
def emitBasicLit : Nat → Kind → Scope L V → BasicLit L → Reg V → EvalM (State L V D) (Reg V)
  | 0, _, _, _, _ => outOfFuel
  | _ + 1, _, _, .plain lit, ret => pure (Reg.set (H.plainLit lit) ret)
  | n + 1, rt, sc, .str fragments, ret => do
    let pieces ← fragments.foldlM
      (fun pieces f => do
        let piece ← stringLitPiece (interpolate n rt sc) f
        pure (pieces ++ [piece]))
      []
    pure (Reg.set (H.ofString pieces.flatten) ret)
  | n + 1, rt, sc, .heredoc h, ret => do
    let pieces ← h.fragments.foldlM
      (fun pieces f => do
        let piece ← heredocLitPiece (interpolate n rt sc) f
        pure (pieces ++ [piece]))
      []
    pure (Reg.set (H.ofString (encode (emitHeredocPieces H.dedent h.start h.terminate pieces))) ret)
  | _ + 1, _, _, .rawHeredoc h, ret => pure (Reg.set (H.ofString (encode (emitRawHeredoc H.dedent h))) ret)

/-- An interpolation: `EmitExpr` into a new register, read with `Value().String()`. -/
def interpolate : Nat → Kind → Scope L V → Expr L → EvalM (State L V D) String
  | 0, _, _, _ => outOfFuel
  | n + 1, rt, sc, x => do
    let exprRet ← emitExpr n rt sc x none (newRegister H.zero rt)
    let v ← force exprRet
    lift (H.string v)

def emitCallExpr : Nat → Kind → Scope L V → IdentExpr → List Kind → List (Expr L) → Reg V →
    EvalM (State L V D) (Reg V)
  | 0, _, _, _, _, _, _ => outOfFuel
  | n + 1, rt, sc, name, signature, args, ret => do
    lift (H.debug sc (some name.ident) ret [])
    let values ← evaluate n sc none signature args
    emitIdentExpr n rt sc name name.ident values [] none ret

/-- `CodeGen.Evaluate`: each expression into a new register for its kind, read at once. -/
def evaluate : Nat → Scope L V → Option (Binding L) → List Kind → List (Expr L) →
    EvalM (State L V D) (List V)
  | 0, _, _, _, _ => outOfFuel
  | n + 1, sc, b, kinds, exprs =>
    if kinds.length ≠ exprs.length then
      throw (.internal ("expected " ++ toString exprs.length ++ " kinds but got " ++
        toString kinds.length))
    else
      (kinds.zip exprs).foldlM
        (fun values ke => do
          let ret ← emitExpr n ke.1 sc ke.2 b (newRegister H.zero ke.1)
          let v ← force ret
          pure (values ++ [v]))
        []

/-- `CodeGen.EmitIdentExpr`: `lookup` in `sc`, and a dispatch on the object found. -/
def emitIdentExpr : Nat → Kind → Scope L V → IdentExpr → String → List V → List O →
    Option (Binding L) → Reg V → EvalM (State L V D) (Reg V)
  | 0, _, _, _, _, _, _, _, _ => outOfFuel
  | n + 1, rt, sc, ie, lookup, args, opts, b, ret => do
    let s ← get
    match s.lookup sc lookup with
    | none => throw (.undefinedIdent lookup)
    | some (.builtinDecl bd) =>
      setAsync ret fun v => pure (emitBuiltinDecl H.dispatch rt bd args opts b v)
    | some (.funcDecl fd) => emitFuncDecl n sc.module fd args none ret
    | some (.bindClause bindings) =>
      match bindings.find? (·.name = lookup) with
      | none => throw (.panic nilDereference)
      | some binding => emitFuncDecl n sc.module binding.closure args (some binding) ret
    | some (.importDecl _) =>
      match s.data sc.module lookup with
      | none => throw (.internal "expected imported module to be resolved")
      | some k =>
        match ie.reference with
        | none => throw (.panic nilDereference)
        | some r => emitIdentExpr n rt (moduleScope k) ie r args opts none ret
    | some (.field data) => do
      let val ← lift (H.newValue data)
      emitField H val ret
    | some (.param _) => do
      let val ← lift H.newValueNil
      emitField H val ret
    | some .other => throw (.internal "invalid resolved object")

/-- `CodeGen.EmitFuncDecl`, for a function of module `m`; `EmitBinding` is this on the
closure of the binding. -/
def emitFuncDecl : Nat → Nat → FuncDecl L → List V → Option (Binding L) → Reg V →
    EvalM (State L V D) (Reg V)
  | 0, _, _, _, _, _ => outOfFuel
  | n + 1, m, fd, args, b, ret =>
    if fd.params.length ≠ args.length then
      throw (.internal (arityMessage (b.elim fd.name Binding.name) fd.params.length args.length))
    else do
      let sc : Scope L V := ⟨m, [bindParams fd.params args, paramScope fd.params]⟩
      lift (H.debug sc (some fd.name) ret [])
      emitBlock n sc fd.body b ret

/-- `CodeGen.EmitBlock`: every statement in turn on the same register. -/
def emitBlock : Nat → Scope L V → Option (Kind × List (Stmt L)) → Option (Binding L) → Reg V →
    EvalM (State L V D) (Reg V)
  | 0, _, _, _, _ => outOfFuel
  | _ + 1, _, none, _, ret => pure ret
  | n + 1, sc, some (kind, stmts), b, ret =>
    stmts.foldlM (fun ret stmt => emitStmt n kind sc stmt b ret) ret

/-- One statement of `EmitBlock`, in a block of kind `rt`. -/
def emitStmt : Nat → Kind → Scope L V → Stmt L → Option (Binding L) → Reg V →
    EvalM (State L V D) (Reg V)
  | 0, _, _, _, _, _ => outOfFuel
  | n + 1, rt, sc, .call name signature args withClause bindClause, b, ret =>
    setAsync ret fun v => do
      lookupCall n sc name.ident
      emitCallStmt n rt sc name signature args withClause bindClause b
        (Reg.set v (newRegister H.zero rt))
  | n + 1, rt, sc, .expr e, b, ret => emitExpr n rt sc e b ret

def emitCallStmt : Nat → Kind → Scope L V → IdentExpr → List Kind → List (Expr L) →
    Option (Expr L) → Option Nat → Option (Binding L) → Reg V → EvalM (State L V D) (Reg V)
  | 0, _, _, _, _, _, _, _, _, _ => outOfFuel
  | n + 1, rt, sc, name, signature, args, withClause, bindClause, b, ret => do
    let values ← evaluate n sc none signature args
    let opts ← (match withClause with
      | none => pure []
      | some w => do
        let ws ← evaluate n sc b [Kind.optionOf name.ident] [w]
        let v ← lift ((index ws 0).mapError .panic)
        lift (H.option v))
    let opts ← (if H.breakpoint name rt then do
        let command ← values.foldlM
          (fun command arg =>
            if H.kind arg ≠ Kind.string then throw (.plain "breakpoint args must be strings")
            else do
              let argStr ← lift (H.string arg)
              pure (command ++ [argStr]))
          []
        pure (if command.length ≠ 0 then opts ++ [H.breakpointCommand command] else opts)
      else pure opts)
    lift (H.debug sc (some name.ident) ret opts)
    emitIdentExpr n rt sc name name.ident values opts (passBinding bindClause b) ret

/-- `CodeGen.lookupCall`: an import object with no `Data` yet gets the module `EmitImport`
reads, and `CheckReferences` runs after that. `Data` is read when the call begins and set
after `EmitImport`, which runs the walk in between. A scope outside the parsed modules has
no root module, and `scope.Root().Node.(*ast.Module)` panics. -/
def lookupCall : Nat → Scope L V → String → EvalM (State L V D) Unit
  | 0, _, _ => outOfFuel
  | n + 1, sc, name => do
    let s ← get
    match s.lookup sc name with
    | none => throw (.undefinedIdent name)
    | some (.importDecl id) =>
      match s.data sc.module name, s.modules[sc.module]? with
      | some _, _ => pure ()
      | none, none => throw (.panic "interface conversion: ast.Node is nil, not *ast.Module")
      | none, some mod => do
        let imod ← emitImport n sc.module mod.directory id
        modify (·.install sc.module name imod)
        lift (H.checkReferences mod.objects name imod.objects)
    | some _ => pure ()

/-- `CodeGen.EmitImport` of the import declaration `id` of module `m`, read from `dir`: the
import's expression, evaluated in the module's scope, names the module. -/
def emitImport : Nat → Nat → D → ImportDecl L → EvalM (State L V D) (Module L V D)
  | 0, _, _, _ => outOfFuel
  | n + 1, m, dir, id => do
    let ret ← emitExpr n Kind.none (moduleScope m) id.expr none (newRegister H.zero Kind.none)
    let val ← force ret
    let path ← lift (importPath H dir id val)
    lift (loadModule H id path.1 path.2)

end

/-- One target of `CodeGen.Generate`, in module `mod` read from file `filename`: its
request. -/
def generateTarget (fuel mod : Nat) (filename target : String) : EvalM (State L V D) Q := do
  let s ← get
  if (s.modules[mod]?.bind (·.objects target)).isNone then
    throw (.plain ("target " ++ String.mk (quote target.toList) ++ " is not defined in " ++
      filename))
  else do
    let ret := newRegister H.zero Kind.none
    lift (H.debug (moduleScope mod) none ret [])
    let ret ← emitIdentExpr H fuel Kind.none (moduleScope mod) ⟨target, none⟩ target [] [] none
      ret
    let v ← force ret
    lift (H.request v)

/-- The loop body of `CodeGen.Generate`: the target's request, appended. -/
def generateLoop (fuel mod : Nat) (filename : String) (requests : List Q) (target : String) :
    EvalM (State L V D) (List Q) := do
  let request ← generateTarget H fuel mod filename target
  pure (requests ++ [request])

/-- `CodeGen.Generate`: the targets in turn, and `Parallel` over their requests. -/
def generate (fuel mod : Nat) (filename : String) (targets : List String) :
    EvalM (State L V D) Q := do
  let requests ← targets.foldlM (generateLoop H fuel mod filename) []
  pure (H.parallel requests)

/-! ## A module that imports another -/

/-- Built-ins are not called here: the dispatch has none. -/
def sampleDispatch : Dispatch String Unit (Binding String) String where
  callables _ _ := none
  extraSolveOpts := []
  context _ := ""
  client := ""
  value v := v
  options _ := ""
  reflect v _ := .ok v
  typeOf _ := .concrete "string" []

/-- The imported module, `lib.hlb`: `string greeting() { "hello"; }`. -/
def libObjects : Table String String := fun n =>
  if n = "greeting" then
    some (.funcDecl ⟨"greeting", [], some (Kind.string, [.expr (.basicLit (.plain "hello"))])⟩)
  else none

/-- Values and literals are strings, a request is a value and a directory its path. The one
file is `lib.hlb` in `.`, which parses to `libObjects`. -/
def sampleHost : Host String String Unit String String String where
  plainLit lit := lit
  ofString bytes := String.mk (bytes.map Char.ofNat)
  dedent := id
  zero _ := ""
  kind _ := Kind.string
  option _ := .ok []
  ofOption _ := ""
  string v := .ok v
  request v := .ok v
  parallel qs := String.intercalate "," qs
  newValue v := .ok v
  newValueNil := .error (.plain "unknown value")
  breakpoint _ _ := false
  breakpointCommand _ := ()
  debug _ _ _ _ := .ok ()
  resolve _ _ := .error (.plain "no resolver")
  moduleFilename := "module.hlb"
  dirOpen dir filename :=
    if dir = "." ∧ filename = "lib.hlb" then .ok "lib.hlb" else .error (.plain "file does not exist")
  isNotExist e := e = .plain "file does not exist"
  parse src := if src = "lib.hlb" then .ok libObjects else .error (.plain "syntax error")
  semanticPass _ := .ok ()
  check _ := .ok ()
  checkReferences _ _ _ := .ok ()
  dispatch := sampleDispatch

/-- The main module, in `.`, just parsed: an import `lib` of the path `path`, and
`string default() { lib.greeting; }`. -/
def importing (path : String) : State String String String where
  modules := [⟨fun n =>
    if n = "lib" then some (.importDecl ⟨.basicLit (.str [.text path.toList]), false⟩)
    else if n = "default" then
      some (.funcDecl ⟨"default", [], some (Kind.string,
        [.call ⟨"lib", some "greeting"⟩ [] [] none none])⟩)
    else none, "."⟩]
  data _ _ := none

/-- The main module of the sample imports `lib.hlb`. -/
def sampleState : State String String String := importing "lib.hlb"

/-- The module `lib` is read into. -/
def libModule : Module String String String := ⟨libObjects, "."⟩

end Hlb.Codegen.Eval
