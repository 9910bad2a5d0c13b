/-
  Hlb.Codegen.Pipeline — a block as a pipeline of built-ins.

  `EmitBlock` feeds every statement into one register. A call statement sets its closure on
  the register with `SetAsync`: the callee gets the value the register holds as its incoming
  value, and what it returns is the register's next value; an error in the register skips
  the rest. So a block of calls to built-ins is the composition of the built-ins, in the
  order of the statements, each on the value the one before it returned.

  A reference to a parameter sets the parameter's value on the register, except that in an
  option block, when both the parameter and the register hold options, the parameter's
  options are appended to the register's: an option block of parameters collects their
  options in order. A `with` clause is such a block, evaluated from an empty option list, and
  what it collects is what the built-in of the call gets.

  A call of a function emits its body in the scope of the call: a parameter with no modifier
  reads its argument, a variadic parameter reads the checker's parameter object, which has no
  `Data`, and every other name is read in the module.

  A call of a function emits the function's body there and then, so a function whose body
  begins by calling itself never gets past that call: the code recurses without bound, and
  the walk runs out of any fuel it is given.

  Proved:
  - `evaluate_plain`: `Evaluate` of literal arguments gives their values, and changes no
    state.
  - `emitStmt_literalCall`: one call of a built-in with literal arguments: `EmitBuiltinDecl`
    on the value the register holds.
  - `emitBlock_literalCalls`: a block of such calls is the fold of `EmitBuiltinDecl` over
    them, from the value the register holds when the block starts; the state is unchanged.
  - `emitIdentExpr_funcScope`: a reference in a function's body, by what the name is among
    the function's parameters.
  - `generate_builtinChain`: so `Generate` of a target whose body is such a block returns,
    with enough fuel, `Parallel` of the request of the value the chain builds.
  - `emitBlock_optionParams`: an option block of references to parameters that hold
    options appends their options to the register's, in order.
  - `emitStmt_withOptions`: a call of a built-in whose `with` clause is such a block passes
    the built-in exactly those options, in order.
  - `generate_self_call_diverges`: `Generate` of a target whose function has no parameters
    and begins by calling itself with no arguments runs out of every fuel bound.
-/
import Hlb.Codegen.Eval

namespace Hlb.Codegen.Eval

open Hlb.Go EvalM

variable {L V O Q R D : Type} (H : Host L V O Q R D)

/-- The call statement `name arg...` with literal arguments of the given kinds, no `with`
clause and no bind clause. -/
def literalCall (name : String) (args : List (Kind × L)) : Stmt L :=
  .call ⟨name, none⟩ (args.map Prod.fst) (args.map fun a => .basicLit (.plain a.2)) none none

theorem evaluate_plain (n : Nat) (sc : Scope L V) (b : Option (Binding L)) (args : List (Kind × L))
    (s : State L V D) :
    evaluate H (n + 3) sc b (args.map Prod.fst) (args.map fun a => .basicLit (.plain a.2)) s =
      some (.ok (args.map (H.plainLit ·.2)), s) := by
  have hl : ∀ (l : List (Kind × L)) (acc : List V),
      l.foldl (fun acc a => acc ++ [H.plainLit a.2]) acc = acc ++ l.map (H.plainLit ·.2) := by
    intro l
    induction l <;> simp_all
  unfold evaluate
  rw [if_neg (by simp), List.zip_map', List.foldlM_map, foldlM_of_pure (fun _ _ _ => rfl), hl,
    List.nil_append]

theorem evaluate_nil (n : Nat) (sc : Scope L V) (b : Option (Binding L)) (s : State L V D) :
    evaluate H (n + 1) sc b [] [] s = some (.ok [], s) := rfl

/-- `lookupCall` of a name that is not an import does nothing. -/
theorem lookupCall_of_not_import {n : Nat} {sc : Scope L V} {name : String} {s : State L V D}
    {o : Obj L V} (hl : s.lookup sc name = some o) (ho : ∀ id, o ≠ .importDecl id) :
    lookupCall H (n + 1) sc name s = some (.ok (), s) := by
  simp only [lookupCall, bind_of_ok (get_apply s), hl]
  cases o with
  | importDecl id => exact absurd rfl (ho id)
  | _ => rfl

theorem emitIdentExpr_builtin {n : Nat} {rt : Kind} {sc : Scope L V} {ie : IdentExpr}
    {lookup : String} {args : List V} {opts : List O} {b : Option (Binding L)} {ret : Reg V}
    {s : State L V D} {bd : BuiltinDecl} (hl : s.lookup sc lookup = some (.builtinDecl bd)) :
    emitIdentExpr H (n + 1) rt sc ie lookup args opts b ret s =
      setAsync ret (fun v => pure (emitBuiltinDecl H.dispatch rt bd args opts b v)) s := by
  simp only [emitIdentExpr, bind_of_ok (get_apply s), hl]

theorem emitIdentExpr_field {n : Nat} {rt : Kind} {sc : Scope L V} {ie : IdentExpr}
    {lookup : String} {args : List V} {opts : List O} {b : Option (Binding L)} {ret : Reg V}
    {s : State L V D} {data : V} (hl : s.lookup sc lookup = some (.field data)) :
    emitIdentExpr H (n + 1) rt sc ie lookup args opts b ret s =
      (lift (H.newValue data) >>= fun val => emitField H val ret) s := by
  simp only [emitIdentExpr, bind_of_ok (get_apply s), hl]

theorem emitIdentExpr_funcDecl {n : Nat} {rt : Kind} {sc : Scope L V} {ie : IdentExpr}
    {lookup : String} {args : List V} {opts : List O} {b : Option (Binding L)} {ret : Reg V}
    {s : State L V D} {fd : FuncDecl L} (hl : s.lookup sc lookup = some (.funcDecl fd)) :
    emitIdentExpr H (n + 1) rt sc ie lookup args opts b ret s =
      emitFuncDecl H n sc.module fd args none ret s := by
  simp only [emitIdentExpr, bind_of_ok (get_apply s), hl]

/-! ## A function's body

A call emits the function's body in `NewScope(fun, fun.Scope)` with the arguments bound: the
first frame holds the parameters that have no modifier, each bound to its argument, and below it
is `fun.Scope`, where the checker put every parameter, a variadic one too, with no `Data`. Of
two parameters of one name the later wins, as the later insert does. -/

theorem bindParams_apply (params : List Field) (args : List V) (name : String) :
    bindParams params args name =
      ((params.zip args).filter fun pa => !pa.1.modifier && pa.1.name = name).getLast?.map
        (.bound ·.2) := by
  unfold bindParams
  induction params.zip args using List.reverseRecOn with
  | nil => rfl
  | append_singleton pas pa ih =>
    rw [List.foldl_append, List.foldl_cons, List.foldl_nil, List.filter_append]
    by_cases hm : pa.1.modifier
    · simp [hm, ih]
    · by_cases hn : name = pa.1.name
      · simp [hm, hn, Frame.insert]
      · simp [hm, hn, ih, Ne.symm hn, Frame.insert]

theorem paramScope_apply (params : List Field) (name : String) :
    (paramScope params : Frame V) name = (params.filter (·.name = name)).getLast?.map .declared := by
  unfold paramScope
  induction params using List.reverseRecOn with
  | nil => rfl
  | append_singleton ps p ih =>
    rw [List.foldl_append, List.foldl_cons, List.foldl_nil, List.filter_append]
    by_cases hn : name = p.name
    · simp [hn, Frame.insert]
    · simp [hn, ih, Ne.symm hn, Frame.insert]

theorem getLast?_filter_name_eq_none {params : List Field} {name : String} :
    (params.filter (·.name = name)).getLast? = none ↔ name ∉ params.map (·.name) := by
  simp [List.filter_eq_nil_iff]

/-- What a name means in the scope of a call: the argument of the last parameter of that name
with no modifier, else the last parameter of that name as the checker declared it, else what it
means in the module. -/
theorem lookup_funcScope (s : State L V D) (m : Nat) (params : List Field) (args : List V)
    (name : String) :
    s.lookup ⟨m, [bindParams params args, paramScope params]⟩ name =
      match ((params.zip args).filter fun pa => !pa.1.modifier && pa.1.name = name).getLast? with
      | some pa => some (.field pa.2)
      | none =>
        match (params.filter (·.name = name)).getLast? with
        | some p => some (.param p)
        | none => s.lookup (moduleScope m) name := by
  simp only [State.lookup, Scope.locals, List.findSome?, bindParams_apply, paramScope_apply]
  generalize ((params.zip args).filter fun pa => !pa.1.modifier && pa.1.name = name).getLast? = a
  generalize (params.filter (·.name = name)).getLast? = b
  cases a <;> cases b <;> rfl

/-- In the scope of a call of a function with no parameters, every name means what it means in
the module's scope. -/
theorem lookup_noParams (s : State L V D) (m : Nat) (name : String) :
    s.lookup ⟨m, [bindParams [] [], paramScope []]⟩ name = s.lookup (moduleScope m) name := rfl

theorem emitIdentExpr_param {n : Nat} {rt : Kind} {sc : Scope L V} {ie : IdentExpr}
    {lookup : String} {args : List V} {opts : List O} {b : Option (Binding L)} {ret : Reg V}
    {s : State L V D} {p : Field} (hl : s.lookup sc lookup = some (.param p)) :
    emitIdentExpr H (n + 1) rt sc ie lookup args opts b ret s =
      (lift H.newValueNil >>= fun val => emitField H val ret) s := by
  simp only [emitIdentExpr, bind_of_ok (get_apply s), hl]

/-- `EmitIdentExpr` reads of its scope only the module and what the name means there. -/
theorem emitIdentExpr_congr {n : Nat} {rt : Kind} {sc sc' : Scope L V} {ie : IdentExpr}
    {lookup : String} {args : List V} {opts : List O} {b : Option (Binding L)} {ret : Reg V}
    {s : State L V D} (hm : sc.module = sc'.module)
    (hl : s.lookup sc lookup = s.lookup sc' lookup) :
    emitIdentExpr H (n + 1) rt sc ie lookup args opts b ret s =
      emitIdentExpr H (n + 1) rt sc' ie lookup args opts b ret s := by
  simp only [emitIdentExpr, bind_of_ok (get_apply s), hl, hm]

/-- A reference in a function's body: a parameter with no modifier gives its argument, any
other parameter (a variadic one) gives `NewValue(ctx, nil)`, and any other name is read as in
the module's scope. -/
theorem emitIdentExpr_funcScope (n : Nat) (rt : Kind) (m : Nat) (params : List Field)
    (args : List V) (ie : IdentExpr) (name : String) (vs : List V) (opts : List O)
    (b : Option (Binding L)) (ret : Reg V) (s : State L V D) :
    emitIdentExpr H (n + 1) rt ⟨m, [bindParams params args, paramScope params]⟩ ie name vs opts b
        ret s =
      match ((params.zip args).filter fun pa => !pa.1.modifier && pa.1.name = name).getLast? with
      | some pa => (lift (H.newValue pa.2) >>= fun val => emitField H val ret) s
      | none =>
        if name ∈ params.map (·.name) then (lift H.newValueNil >>= fun val => emitField H val ret) s
        else emitIdentExpr H (n + 1) rt (moduleScope m) ie name vs opts b ret s := by
  have hl := lookup_funcScope s m params args name
  rcases hb : ((params.zip args).filter fun pa => !pa.1.modifier && pa.1.name = name).getLast?
    with _ | pa <;> rw [hb] at hl ⊢
  · rcases hq : (params.filter (·.name = name)).getLast? with _ | p <;> rw [hq] at hl
    · rw [if_neg (getLast?_filter_name_eq_none.1 hq)]
      exact emitIdentExpr_congr H rfl hl
    · rw [if_pos (not_not.1 (mt getLast?_filter_name_eq_none.2 (by simp [hq])))]
      exact emitIdentExpr_param H hl
  · exact emitIdentExpr_field H hl

/-- A call with as many arguments as parameters emits the body in the scope of the call. -/
theorem emitFuncDecl_call {n m : Nat} {fd : FuncDecl L} {args : List V} {b : Option (Binding L)}
    {ret : Reg V} {s : State L V D} (hlen : fd.params.length = args.length)
    (hdebug : ∀ sc nm r o, H.debug sc nm r o = .ok ()) :
    emitFuncDecl H (n + 1) m fd args b ret s =
      emitBlock H n ⟨m, [bindParams fd.params args, paramScope fd.params]⟩ fd.body b ret s := by
  simp only [emitFuncDecl, hlen, ne_eq, not_true_eq_false, if_false, bind_apply, lift_apply,
    hdebug]

/-- A call with more or fewer arguments than parameters fails, and changes no state. -/
theorem emitFuncDecl_arity {n m : Nat} {fd : FuncDecl L} {args : List V} {b : Option (Binding L)}
    {ret : Reg V} {s : State L V D} (hlen : fd.params.length ≠ args.length) :
    emitFuncDecl H (n + 1) m fd args b ret s =
      some (.error (.internal (arityMessage (b.elim fd.name Binding.name) fd.params.length
        args.length)), s) := by
  simp only [emitFuncDecl, if_pos hlen]
  rfl

theorem emitFuncDecl_nil {n m : Nat} {fd : FuncDecl L} {b : Option (Binding L)} {ret : Reg V}
    {s : State L V D} (hparams : fd.params = []) (hdebug : ∀ sc nm r o, H.debug sc nm r o = .ok ()) :
    emitFuncDecl H (n + 1) m fd [] b ret s =
      emitBlock H n ⟨m, [bindParams [] [], paramScope []]⟩ fd.body b ret s := by
  rw [emitFuncDecl_call H (by rw [hparams]; rfl) hdebug, hparams]

theorem generateTarget_of_lookup {fuel mod : Nat} {filename name : String} {s : State L V D}
    {o : Obj L V} (hl : s.lookup (moduleScope mod) name = some o)
    (hdebug : ∀ sc nm r o, H.debug sc nm r o = .ok ()) :
    generateTarget H fuel mod filename name s =
      (emitIdentExpr H fuel Kind.none (moduleScope mod) ⟨name, none⟩ name [] [] none
        (newRegister H.zero Kind.none) >>= fun ret => force ret >>= fun v => lift (H.request v)) s := by
  have hdef : (s.modules[mod]?.bind (·.objects name)).isNone = false := by
    rw [show s.modules[mod]?.bind (·.objects name) = s.lookup (moduleScope mod) name from rfl, hl]
    rfl
  rw [generateTarget, bind_of_ok (get_apply s)]
  simp only [hdef, Bool.false_eq_true, if_false]
  rw [bind_of_ok (by rw [lift_apply, hdebug])]

theorem emitStmt_literalCall {n : Nat} {kind : Kind} {sc : Scope L V} {name : String}
    {bd : BuiltinDecl} {args : List (Kind × L)} {s : State L V D} (b : Option (Binding L))
    (ret : Reg V) (hl : s.lookup sc name = some (.builtinDecl bd))
    (hbp : H.breakpoint ⟨name, none⟩ kind = false) (hdebug : ∀ sc' nm r o, H.debug sc' nm r o = .ok ()) :
    emitStmt H (n + 5) kind sc (literalCall name args) b ret s =
      some (.ok (ret.bind (emitBuiltinDecl H.dispatch kind bd (args.map (H.plainLit ·.2)) [] none)),
        s) := by
  cases ret with
  | error e => rfl
  | ok v =>
    have hcs : emitCallStmt H (n + 4) kind sc ⟨name, none⟩ (args.map Prod.fst)
        (args.map fun a => .basicLit (.plain a.2)) none none b (Reg.set v (newRegister H.zero kind)) s =
        some (.ok (emitBuiltinDecl H.dispatch kind bd (args.map (H.plainLit ·.2)) [] none v), s) := by
      have hpb : passBinding none b = none := by cases b <;> rfl
      simp only [emitCallStmt, bind_apply, evaluate_plain, hbp, hdebug, lift_apply, pure_apply,
        Bool.false_eq_true, if_false, emitIdentExpr_builtin H hl, hpb]
      rfl
    simp only [literalCall, emitStmt, setAsync, bind_apply,
      lookupCall_of_not_import H hl fun _ => nofun, hcs]
    rfl

/-- The statements of a block of calls to built-ins with literal arguments, in turn. -/
theorem foldlM_literalCalls {n : Nat} {kind : Kind} {sc : Scope L V} {s : State L V D}
    {calls : List (String × BuiltinDecl × List (Kind × L))}
    (hl : ∀ c ∈ calls, s.lookup sc c.1 = some (.builtinDecl c.2.1))
    (hbp : ∀ c ∈ calls, H.breakpoint ⟨c.1, none⟩ kind = false)
    (hdebug : ∀ sc' nm r o, H.debug sc' nm r o = .ok ()) (b : Option (Binding L)) (ret : Reg V) :
    ((calls.map fun c => literalCall c.1 c.2.2).foldlM
        (fun ret stmt => emitStmt H (n + 5) kind sc stmt b ret) ret : EvalM (State L V D) (Reg V)) s =
      some (.ok (calls.foldl (fun r c =>
        r.bind (emitBuiltinDecl H.dispatch kind c.2.1 (c.2.2.map (H.plainLit ·.2)) [] none)) ret),
        s) := by
  rw [List.foldlM_map]
  exact foldlM_of_pure (fun r c hc => emitStmt_literalCall H b r (hl c hc) (hbp c hc) hdebug) ret

/-- A block of calls to built-ins, each with literal arguments and with no `with` or bind
clause, when every name resolves to its built-in, no call is a breakpoint and the debugger
lets every call through: each built-in gets as its incoming value what the one before it
returned, the first the value the register holds, and an error stops the chain and stays in
the register. No state changes. -/
theorem emitBlock_literalCalls {n : Nat} {kind : Kind} {sc : Scope L V} {s : State L V D}
    {calls : List (String × BuiltinDecl × List (Kind × L))}
    (hl : ∀ c ∈ calls, s.lookup sc c.1 = some (.builtinDecl c.2.1))
    (hbp : ∀ c ∈ calls, H.breakpoint ⟨c.1, none⟩ kind = false)
    (hdebug : ∀ sc' nm r o, H.debug sc' nm r o = .ok ()) (b : Option (Binding L)) (ret : Reg V) :
    emitBlock H (n + 6) sc (some (kind, calls.map fun c => literalCall c.1 c.2.2)) b ret s =
      some (.ok (calls.foldl (fun r c =>
        r.bind (emitBuiltinDecl H.dispatch kind c.2.1 (c.2.2.map (H.plainLit ·.2)) [] none)) ret),
        s) :=
  foldlM_literalCalls H hl hbp hdebug b ret

/-- `Generate` of a target whose function has no parameters and whose body is a block of
calls to built-ins, as in `emitBlock_literalCalls`, returns, with eight or more units of fuel,
`Parallel` of the request of the value the chain of built-ins builds from the zero value,
or the first error, and changes no state. -/
theorem generate_builtinChain {fuel mod : Nat} {filename name : String} {s : State L V D}
    {fd : FuncDecl L} {kind : Kind} {calls : List (String × BuiltinDecl × List (Kind × L))}
    (hl : s.lookup (moduleScope mod) name = some (.funcDecl fd)) (hparams : fd.params = [])
    (hbody : fd.body = some (kind, calls.map fun c => literalCall c.1 c.2.2))
    (hcalls : ∀ c ∈ calls, s.lookup (moduleScope mod) c.1 = some (.builtinDecl c.2.1))
    (hbp : ∀ c ∈ calls, H.breakpoint ⟨c.1, none⟩ kind = false)
    (hdebug : ∀ sc nm r o, H.debug sc nm r o = .ok ()) :
    generate H (fuel + 8) mod filename [name] s =
      some (((calls.foldl (fun r c =>
        r.bind (emitBuiltinDecl H.dispatch kind c.2.1 (c.2.2.map (H.plainLit ·.2)) [] none))
        (newRegister H.zero Kind.none)).bind H.request).map (fun q => H.parallel [q]), s) := by
  have hblock : emitBlock H (fuel + 6) ⟨mod, [bindParams [] [], paramScope []]⟩ fd.body none
      (newRegister H.zero Kind.none) s =
      some (.ok (calls.foldl (fun r c =>
        r.bind (emitBuiltinDecl H.dispatch kind c.2.1 (c.2.2.map (H.plainLit ·.2)) [] none))
        (newRegister H.zero Kind.none)), s) := by
    rw [hbody]
    exact foldlM_literalCalls H (fun c hc => (lookup_noParams s mod c.1).trans (hcalls c hc)) hbp
      hdebug none _
  have hfun : emitIdentExpr H (fuel + 8) Kind.none (moduleScope mod) ⟨name, none⟩ name [] [] none
      (newRegister H.zero Kind.none) s = _ :=
    (emitIdentExpr_funcDecl H hl).trans ((emitFuncDecl_nil H hparams hdebug).trans hblock)
  have ht : generateTarget H (fuel + 8) mod filename name s = _ := generateTarget_of_lookup H hl hdebug
  rw [bind_of_ok hfun] at ht
  generalize calls.foldl _ _ = r at ht ⊢
  rw [generate, List.foldlM_cons]
  rcases r with e | v
  · simp only [bind_apply, generateLoop, ht, force, lift_apply, Except.bind, Except.map]
  · rcases hq : H.request v with e | q <;>
      simp only [bind_apply, generateLoop, ht, force, lift_apply, hq, pure_apply, List.foldlM_nil,
        Except.bind, Except.map, List.nil_append]

/-! ## A built-in that appends `!` -/

/-- `Call(ctx, cln, val, opts)` returning the incoming value with `!` appended. -/
def shoutCallable : Callable String String :=
  ⟨"codegen.Shout", ⟨prototypeIn, none, prototypeOut⟩, fun ins =>
    match ins with
    | [_, _, v, _] => .ok (v ++ "!")
    | _ => .error "arguments"⟩

/-- A value is its text; the context, the client and the options are the texts `ctx`, `cln`
and `opts`, each of the type `reflect` gives it. -/
def shoutDispatch : Dispatch String Unit (Binding String) String where
  callables _ name := if name = "shout" then some shoutCallable else none
  extraSolveOpts := []
  context _ := "ctx"
  client := "cln"
  value v := v
  options _ := "opts"
  reflect v _ := .ok v
  typeOf r :=
    if r = "ctx" then valueCtxType else if r = "cln" then clientType
    else if r = "opts" then optionType else valueType

def shoutHost : Host String String Unit String String String :=
  { sampleHost with dispatch := shoutDispatch }

/-- A module whose scope has the built-in `shout`. -/
def shoutState : State String String String :=
  ⟨[⟨fun n => if n = "shout" then some (.builtinDecl ⟨"shout", [Kind.string]⟩) else none, "."⟩],
    fun _ _ => none⟩

/-- `string { shout; shout; }` on `"hello"` gives `"hello!!"`. -/
theorem emitBlock_sample_shout :
    (∀ c ∈ [("shout", (⟨"shout", [Kind.string]⟩ : BuiltinDecl), ([] : List (Kind × String))),
        ("shout", ⟨"shout", [Kind.string]⟩, [])],
      shoutState.lookup (moduleScope 0) c.1 = some (.builtinDecl c.2.1)) ∧
      emitBlock shoutHost 6 (moduleScope 0)
        (some (Kind.string, [literalCall "shout" [], literalCall "shout" []])) none (.ok "hello")
        shoutState = some (.ok (.ok "hello!!"), shoutState) := by
  have hl : ∀ c ∈ [("shout", (⟨"shout", [Kind.string]⟩ : BuiltinDecl), ([] : List (Kind × String))),
      ("shout", ⟨"shout", [Kind.string]⟩, [])],
      shoutState.lookup (moduleScope 0) c.1 = some (.builtinDecl c.2.1) := by
    simp only [List.mem_cons, List.mem_singleton, or_self, List.not_mem_nil, or_false]
    rintro c rfl
    rfl
  exact ⟨hl, emitBlock_literalCalls shoutHost hl (fun _ _ => rfl) (fun _ _ _ _ => rfl) none _⟩

/-- `string default() { shout; shout; }` beside the built-in `shout`. -/
def shoutDefault : FuncDecl String :=
  ⟨"default", [], some (Kind.string, [literalCall "shout" [], literalCall "shout" []])⟩

/-- A module with the built-in `shout` and the function `default`. -/
def shoutMain : State String String String :=
  ⟨[⟨fun n => if n = "shout" then some (.builtinDecl ⟨"shout", [Kind.string]⟩)
      else if n = "default" then some (.funcDecl shoutDefault) else none, "."⟩], fun _ _ => none⟩

/-- `Generate` of `default` gives `"!!"`: the zero value `""`, shouted twice. -/
theorem generate_sample_shout :
    shoutMain.lookup (moduleScope 0) "default" = some (.funcDecl shoutDefault) ∧
      generate shoutHost 8 0 "main.hlb" ["default"] shoutMain = some (.ok "!!", shoutMain) :=
  have hl : shoutMain.lookup (moduleScope 0) "default" = some (.funcDecl shoutDefault) := rfl
  have hbody : shoutDefault.body = some (Kind.string,
      ([("shout", ⟨"shout", [Kind.string]⟩, []), ("shout", ⟨"shout", [Kind.string]⟩, [])] :
        List (String × BuiltinDecl × List (Kind × String))).map fun c => literalCall c.1 c.2.2) := rfl
  ⟨hl, generate_builtinChain shoutHost hl rfl hbody
    (fun _ hc => by rcases List.mem_pair.1 hc with rfl | rfl <;> rfl) (fun _ _ => rfl)
    (fun _ _ _ _ => rfl)⟩

/-! ## Option blocks -/

section Options

variable (hkind : ∀ l, H.kind (H.ofOption l) = Kind.option)
  (hopt : ∀ l, H.option (H.ofOption l) = .ok l)

include hkind hopt in
theorem emitField_options (acc opts : List O) (s : State L V D) :
    emitField H (H.ofOption opts) (.ok (H.ofOption acc)) s =
      some (.ok (.ok (H.ofOption (acc ++ opts))), s) := by
  simp only [emitField, hkind, ne_eq, not_true_eq_false, or_self, if_false, bind_apply, lift_apply,
    hopt, pure_apply, set_ok]

include hkind hopt in
theorem emitStmt_optionParam {n : Nat} {kind : Kind} {sc : Scope L V} {name : String} {data : V}
    {opts : List O} {s : State L V D} (b : Option (Binding L)) (acc : List O)
    (hl : s.lookup sc name = some (.field data)) (hv : H.newValue data = .ok (H.ofOption opts))
    (hbp : H.breakpoint ⟨name, none⟩ kind = false) (hdebug : ∀ sc' nm r o, H.debug sc' nm r o = .ok ()) :
    emitStmt H (n + 5) kind sc (literalCall name []) b (.ok (H.ofOption acc)) s =
      some (.ok (.ok (H.ofOption (acc ++ opts))), s) := by
  have hid : emitIdentExpr H (n + 3) kind sc ⟨name, none⟩ name [] [] (passBinding none b)
      (.ok (H.ofOption acc)) s = some (.ok (.ok (H.ofOption (acc ++ opts))), s) := by
    rw [emitIdentExpr_field H hl, bind_of_ok (by rw [lift_apply, hv])]
    exact emitField_options H hkind hopt acc opts s
  simp only [literalCall, List.map_nil, emitStmt, setAsync, emitCallStmt,
    bind_of_ok (lookupCall_of_not_import H hl fun _ => nofun), bind_apply, evaluate_nil, hbp, hdebug,
    lift_apply, pure_apply, Bool.false_eq_true, if_false, newRegister, set_ok, hid]

theorem foldl_append_flatten {α β : Type} (f : α → List β) :
    ∀ (l : List α) (acc : List β), l.foldl (fun acc a => acc ++ f a) acc = acc ++ (l.map f).flatten
  | [], acc => (List.append_nil acc).symm
  | a :: l, acc => by
    rw [List.foldl_cons, foldl_append_flatten f l, List.map_cons, List.flatten_cons, List.append_assoc]

include hkind hopt in
/-- The statements of an option block of references to parameters that hold options, in turn:
each appends its parameter's options. -/
theorem foldlM_optionParams {n : Nat} {kind : Kind} {sc : Scope L V} {s : State L V D}
    {params : List (String × V × List O)} (hl : ∀ p ∈ params, s.lookup sc p.1 = some (.field p.2.1))
    (hv : ∀ p ∈ params, H.newValue p.2.1 = .ok (H.ofOption p.2.2))
    (hbp : ∀ p ∈ params, H.breakpoint ⟨p.1, none⟩ kind = false)
    (hdebug : ∀ sc' nm r o, H.debug sc' nm r o = .ok ()) (b : Option (Binding L)) (acc : List O) :
    ((params.map fun p => literalCall p.1 []).foldlM (fun ret stmt => emitStmt H (n + 5) kind sc stmt b ret)
        (.ok (H.ofOption acc)) : EvalM (State L V D) (Reg V)) s =
      some (.ok (.ok (H.ofOption (acc ++ (params.map fun p => p.2.2).flatten))), s) := by
  rw [List.foldlM_map, ← foldl_append_flatten]
  exact foldlM_of_map (f := fun ret (p : String × V × List O) => emitStmt H (n + 5) kind sc (literalCall p.1 []) b ret)
    (j := fun acc => (.ok (H.ofOption acc) : Reg V)) (g := fun acc p => acc ++ p.2.2)
    (fun a p hp => emitStmt_optionParam H hkind hopt b a (hl p hp) (hv p hp) (hbp p hp) hdebug) acc

include hkind hopt in
/-- An option block of references to parameters that hold options, on a register that holds
options, when no reference is a breakpoint and the debugger lets every call through: each
parameter's options are appended to the register's, in the order of the statements, and no
state changes. -/
theorem emitBlock_optionParams {n : Nat} {kind : Kind} {sc : Scope L V} {s : State L V D}
    {params : List (String × V × List O)} (hl : ∀ p ∈ params, s.lookup sc p.1 = some (.field p.2.1))
    (hv : ∀ p ∈ params, H.newValue p.2.1 = .ok (H.ofOption p.2.2))
    (hbp : ∀ p ∈ params, H.breakpoint ⟨p.1, none⟩ kind = false)
    (hdebug : ∀ sc' nm r o, H.debug sc' nm r o = .ok ()) (b : Option (Binding L)) (acc : List O) :
    emitBlock H (n + 6) sc (some (kind, params.map fun p => literalCall p.1 [])) b
        (.ok (H.ofOption acc)) s =
      some (.ok (.ok (H.ofOption (acc ++ (params.map fun p => p.2.2).flatten))), s) :=
  foldlM_optionParams H hkind hopt hl hv hbp hdebug b acc

include hkind hopt in
/-- A call of a built-in with literal arguments and a `with` clause that is an option block of
references to parameters that hold options: the built-in gets the options of the parameters,
in order, on the value the register holds. The option block starts from the zero value of the
callee's option kind, which holds no options; no call is a breakpoint, the debugger lets every
call through, and no state changes. -/
theorem emitStmt_withOptions {n : Nat} {kind okind : Kind} {sc : Scope L V} {name : String}
    {bd : BuiltinDecl} {args : List (Kind × L)} {params : List (String × V × List O)}
    {s : State L V D} (hzero : H.zero (Kind.optionOf name) = H.ofOption [])
    (hl : s.lookup sc name = some (.builtinDecl bd))
    (hparams : ∀ p ∈ params, s.lookup sc p.1 = some (.field p.2.1))
    (hv : ∀ p ∈ params, H.newValue p.2.1 = .ok (H.ofOption p.2.2))
    (hbp : H.breakpoint ⟨name, none⟩ kind = false)
    (hbpo : ∀ p ∈ params, H.breakpoint ⟨p.1, none⟩ okind = false)
    (hdebug : ∀ sc' nm r o, H.debug sc' nm r o = .ok ()) (b : Option (Binding L)) (v : V) :
    emitStmt H (n + 10) kind sc (.call ⟨name, none⟩ (args.map Prod.fst)
        (args.map fun a => .basicLit (.plain a.2))
        (some (.funcLit okind (params.map fun p => literalCall p.1 []))) none) b (.ok v) s =
      some (.ok (emitBuiltinDecl H.dispatch kind bd (args.map (H.plainLit ·.2))
        (params.map fun p => p.2.2).flatten none v), s) := by
  have hblock : emitExpr H (n + 7) (Kind.optionOf name) sc
      (.funcLit okind (params.map fun p => literalCall p.1 [])) b
      (newRegister H.zero (Kind.optionOf name)) s =
      some (.ok (.ok (H.ofOption (params.map fun p => p.2.2).flatten)), s) := by
    rw [newRegister, hzero]
    exact foldlM_optionParams H hkind hopt hparams hv hbpo hdebug b []
  have hwith : evaluate H (n + 8) sc b [Kind.optionOf name]
      [.funcLit okind (params.map fun p => literalCall p.1 [])] s =
      some (.ok [H.ofOption (params.map fun p => p.2.2).flatten], s) := by
    unfold evaluate
    rw [if_neg (by simp), List.zip_cons_cons, List.zip_nil_right, List.foldlM_cons]
    simp only [bind_apply, hblock, force, lift_apply, pure_apply, List.foldlM_nil, List.nil_append]
  have hidx : (index [H.ofOption (params.map fun p => p.2.2).flatten] 0).mapError Err.panic =
      .ok (H.ofOption (params.map fun p => p.2.2).flatten) := rfl
  have hpb : passBinding none b = none := by cases b <;> rfl
  simp only [emitStmt, setAsync, bind_apply, lookupCall_of_not_import H hl fun _ => nofun, emitCallStmt,
    evaluate_plain, hwith, lift_apply, hidx, hopt, hbp, Bool.false_eq_true, if_false, pure_apply, hdebug,
    hpb, newRegister, set_ok, emitIdentExpr_builtin H hl]

end Options

/-- The sample host, with every value an option list, held as one `o` for each option. -/
def optionHost : Host String String Unit String String String :=
  { sampleHost with
    kind := fun _ => Kind.option
    ofOption := fun opts => String.mk (opts.map fun _ => 'o')
    option := fun v => .ok (v.toList.map fun _ => ()) }

/-- The parameters `a`, holding two options, and `b`, holding one. -/
def optionParams : List (String × String × List Unit) := [("a", "oo", [(), ()]), ("b", "o", [()])]

/-- The scope of a call of a function of module `0` with the parameters `a` and `b`, bound to
the values of `optionParams`. -/
def optionScope : Scope String String :=
  ⟨0, [bindParams [⟨"a", false⟩, ⟨"b", false⟩] ["oo", "o"], paramScope [⟨"a", false⟩, ⟨"b", false⟩]]⟩

/-- `optionHost` reads an option list back as it was set. -/
theorem optionHost_option (l : List Unit) : optionHost.option (optionHost.ofOption l) = .ok l := by
  simpa [optionHost] using (List.eq_replicate_iff.2 ⟨rfl, fun _ _ => rfl⟩).symm

theorem lookup_optionScope (s : State String String String) :
    ∀ p ∈ optionParams, s.lookup optionScope p.1 = some (.field p.2.1) := by
  simp only [optionParams, List.forall_mem_cons]
  exact ⟨rfl, rfl, fun _ => nofun⟩

theorem newValue_optionParams :
    ∀ p ∈ optionParams, optionHost.newValue p.2.1 = .ok (optionHost.ofOption p.2.2) := by
  simp only [optionParams, List.forall_mem_cons]
  exact ⟨rfl, rfl, fun _ => nofun⟩

/-- `option { a; b; }` appends the two options of `a` and the one of `b`. -/
theorem emitBlock_sample_options :
    (∀ p ∈ optionParams, sampleState.lookup optionScope p.1 = some (.field p.2.1)) ∧
      emitBlock optionHost 6 optionScope (some (Kind.option, [literalCall "a" [], literalCall "b" []]))
        none (.ok "") sampleState = some (.ok (.ok "ooo"), sampleState) :=
  ⟨lookup_optionScope _, emitBlock_optionParams optionHost (fun _ => rfl) optionHost_option
    (lookup_optionScope _) newValue_optionParams (fun _ _ => rfl) (fun _ _ _ _ => rfl) none []⟩

/-- `Call(ctx, cln, val, opts)` returning the incoming value with the options' text appended. -/
def tagCallable : Callable String String :=
  ⟨"codegen.Tag", ⟨prototypeIn, none, prototypeOut⟩, fun ins =>
    match ins with
    | [_, _, v, o] => .ok (v ++ o)
    | _ => .error "arguments"⟩

/-- `optionHost` with the built-in `tag`; the options are the text `#` and an `o` for each
option. -/
def tagHost : Host String String Unit String String String :=
  { optionHost with
    dispatch :=
      { shoutDispatch with
        callables := fun _ name => if name = "tag" then some tagCallable else none
        options := fun opts => String.mk ('#' :: opts.map fun _ => 'o')
        typeOf := fun r =>
          if r = "ctx" then valueCtxType else if r = "cln" then clientType
          else if r.data.head? = some '#' then optionType else valueType } }

/-- A module whose scope has the built-in `tag`. -/
def tagState : State String String String :=
  ⟨[⟨fun n => if n = "tag" then some (.builtinDecl ⟨"tag", [Kind.string]⟩) else none, "."⟩],
    fun _ _ => none⟩

/-- `tag with option { a; b; }` on `"x"`: `tag` gets the three options of `a` and `b`. -/
theorem emitStmt_sample_with_options :
    tagState.lookup optionScope "tag" = some (.builtinDecl ⟨"tag", [Kind.string]⟩) ∧
      emitStmt tagHost 10 Kind.string optionScope (.call ⟨"tag", none⟩ [] []
          (some (.funcLit Kind.option [literalCall "a" [], literalCall "b" []])) none) none (.ok "x")
          tagState = some (.ok (.ok "x#ooo"), tagState) := by
  have hl : tagState.lookup optionScope "tag" = some (.builtinDecl ⟨"tag", [Kind.string]⟩) := rfl
  have hw : emitStmt tagHost 10 Kind.string optionScope (.call ⟨"tag", none⟩
      (([] : List (Kind × String)).map Prod.fst) (([] : List (Kind × String)).map fun a => .basicLit (.plain a.2))
      (some (.funcLit Kind.option (optionParams.map fun p => literalCall p.1 []))) none) none (.ok "x")
      tagState = _ :=
    emitStmt_withOptions tagHost (fun _ => rfl) optionHost_option rfl hl (lookup_optionScope _)
      newValue_optionParams rfl (fun _ _ => rfl) (fun _ _ _ _ => rfl) none "x"
  exact ⟨hl, hw⟩

/-! ## A function that calls itself -/

section SelfCall

variable {m : Nat} {name : String} {s : State L V D} {fd : FuncDecl L} {kind : Kind}
  {rest : List (Stmt L)}

/-- Each step of the recursion, from `EmitIdentExpr` of the function to the call statement
that names it again, is out of fuel at every bound, by induction on the fuel: each passes to
the next with one unit less, and the call statement to `EmitIdentExpr`. -/
theorem selfCall_out_of_fuel (hl : s.lookup (moduleScope m) name = some (.funcDecl fd))
    (hparams : fd.params = []) (hbody : fd.body = some (kind, literalCall name [] :: rest))
    (hbp : H.breakpoint ⟨name, none⟩ kind = false)
    (hdebug : ∀ sc nm r o, H.debug sc nm r o = .ok ()) :
    ∀ n, (∀ (sc : Scope L V) rt ie opts b v, sc.module = m →
        s.lookup sc name = some (.funcDecl fd) →
        emitIdentExpr H n rt sc ie name [] opts b (.ok v) s = none) ∧
      (∀ v, emitFuncDecl H n m fd [] none (.ok v) s = none) ∧
      (∀ v, emitBlock H n ⟨m, [bindParams [] [], paramScope []]⟩ fd.body none (.ok v) s = none) ∧
      (∀ v, emitStmt H n kind ⟨m, [bindParams [] [], paramScope []]⟩ (literalCall name []) none
        (.ok v) s = none) ∧
      ∀ v, emitCallStmt H n kind ⟨m, [bindParams [] [], paramScope []]⟩ ⟨name, none⟩ [] [] none none
        none (.ok v) s = none
  | 0 => ⟨fun _ _ _ _ _ _ _ _ => rfl, fun _ => rfl, fun _ => rfl, fun _ => rfl, fun _ => rfl⟩
  | k + 1 => by
    obtain ⟨hIdent, hFunc, hBlock, hStmt, hCall⟩ := selfCall_out_of_fuel hl hparams hbody hbp hdebug k
    refine ⟨fun sc rt ie opts b v hm hsc => ?_, fun v => ?_, fun v => ?_, fun v => ?_, fun v => ?_⟩
    · rw [emitIdentExpr_funcDecl H hsc, hm]
      exact hFunc v
    · exact (emitFuncDecl_nil H hparams hdebug).trans (hBlock v)
    · rw [hbody]
      exact bind_of_none (hStmt v) _
    · rcases k with _ | j
      · rfl
      · simp only [literalCall, List.map_nil, emitStmt, setAsync,
          bind_of_ok (lookupCall_of_not_import H ((lookup_noParams s m name).trans hl) fun _ => nofun),
          newRegister, set_ok, hCall v]
    · rcases k with _ | j
      · rfl
      · simp only [emitCallStmt, bind_apply, evaluate_nil, hbp, hdebug, lift_apply, pure_apply,
          Bool.false_eq_true, if_false]
        exact hIdent _ _ _ _ _ v rfl ((lookup_noParams s m name).trans hl)

/-- `Generate` of a target whose function has no parameters and begins by calling itself,
with no arguments and no `with` or bind clause, never returns: at every fuel bound the walk
runs out, as the code, which has no bound, recurses forever. (No breakpoint is set on the
call, and the debugger lets every step through.) -/
theorem generate_self_call_diverges {fuel mod : Nat} {filename : String} {targets : List String}
    (hl : s.lookup (moduleScope mod) name = some (.funcDecl fd)) (hparams : fd.params = [])
    (hbody : fd.body = some (kind, literalCall name [] :: rest))
    (hbp : H.breakpoint ⟨name, none⟩ kind = false)
    (hdebug : ∀ sc nm r o, H.debug sc nm r o = .ok ()) :
    generate H fuel mod filename (name :: targets) s = none := by
  have ht : generateTarget H fuel mod filename name s = none := by
    rw [generateTarget_of_lookup H hl hdebug]
    exact bind_of_none ((selfCall_out_of_fuel H hl hparams hbody hbp hdebug fuel).1 _ _ _ _ _ _ rfl hl) _
  rw [generate, List.foldlM_cons]
  exact bind_of_none (bind_of_none (bind_of_none ht _) _) _

end SelfCall

/-- `string loop() { loop; }`. -/
def loopDecl : FuncDecl String := ⟨"loop", [], some (Kind.string, [literalCall "loop" []])⟩

/-- A module whose scope has the function `loop`. -/
def loopState : State String String String :=
  ⟨[⟨fun n => if n = "loop" then some (.funcDecl loopDecl) else none, "."⟩], fun _ _ => none⟩

/-- `Generate` of `loop` with twenty units of fuel runs out. -/
theorem generate_sample_self_call :
    loopState.lookup (moduleScope 0) "loop" = some (.funcDecl loopDecl) ∧
      generate sampleHost 20 0 "main.hlb" ["loop"] loopState = none :=
  ⟨rfl, generate_self_call_diverges sampleHost rfl rfl rfl rfl fun _ _ _ _ => rfl⟩

end Hlb.Codegen.Eval
