/-
  Hlb.Codegen.Builtin — `CodeGen.EmitBuiltinDecl`: a call of a built-in goes to the callable
  the registry has for it, and the callable's `Call` is invoked through `reflect`.

  The callable is `Callables[ReturnType(ctx)][name]`, or, when the context carries no return
  type, the one of the first of the declaration's kinds that has one. `Call` gets the
  prototype prefix (the context, with the binding when there is one, the client, the
  incoming value, and the options with the code generator's extra solve options appended),
  then the arguments reflected to its parameter types. `numIn` counts the regular
  parameters and `expected = numIn - len(PrototypeIn)` is an `int`: fewer arguments than
  `expected` is an arity error, the regular parameters take `args[i - len(PrototypeIn)]`,
  and a variadic parameter takes every argument from `expected` on. A callable that is not
  variadic is called with the first `expected` arguments and no others.

  The registry, `reflect.ValueOf` of the prefix and `Value.Reflect` are parameters
  (`Dispatch`): the callables and the values are outside the sources.

  Proved:
  - `reflectRegular_eq`, `reflectVariadic_eq`: for a callable that `CheckPrototype` accepts
    and enough arguments, the two index loops reflect `args[j]` to the `j`-th parameter after
    the prefix and every later argument to the variadic element type, and index nothing out
    of range.
  - `emitBuiltinDecl_eq`: for such a callable and every argument list, `EmitBuiltinDecl`
    returns the arity error, or the first error of `Reflect`, or what `Call` returns on the
    prefix and the reflected arguments.
  - `length_reflectArgs`: every argument is reflected, once and in order, when the callable
    is variadic or has a parameter for each.
  - `emitBuiltinDecl_surplus`, `emitBuiltinDecl_format_surplus`: a callable that is not
    variadic, given more arguments than parameters, gets no arity error (the check is `<`,
    where `EmitFuncDecl`'s is `!=`): `Call` runs on the first arguments and the others are
    dropped unread.
  - `emitBuiltinDecl_of_prefix_assignable`, `emitBuiltinDecl_panics_iff`: when `Reflect`
    gives values of the types asked for, the reflected arguments pass every check of
    `Call`, and the call panics exactly when a value of the prefix is not assignable to the
    callable's parameter at its position.
  - `emitBuiltinDecl_traced_panics`: a callable whose context parameter is an interface
    with one more method than `context.Context` passes start-up, and every call of it
    panics in `reflect`.
-/
import Hlb.Codegen.Prototype
import Hlb.Codegen.Ast
import Hlb.Go.Strings

namespace Hlb.Codegen

open Hlb.Go

structure Callable (V R : Type) where
  /-- `reflect.TypeOf(callable)`. -/
  typeName : String
  /-- The type of its `Call` method. -/
  call : FuncType
  /-- What `Call` returns on arguments that pass `reflect`'s checks: the value, or the
  non-nil error. -/
  run : List R → Except String V

/-- What `EmitBuiltinDecl` reads besides its arguments. `V` is `Value`, `O` a solve option,
`B` a binding and `R` a `reflect.Value`. -/
structure Dispatch (V O B R : Type) where
  callables : Kind → String → Option (Callable V R)
  extraSolveOpts : List O
  /-- `reflect.ValueOf(ctx)`, the context carrying the binding when there is one. -/
  context : Option B → R
  /-- `reflect.ValueOf(cg.cln)`. -/
  client : R
  /-- `reflect.ValueOf(v)`. -/
  value : V → R
  /-- `reflect.ValueOf(opts)`. -/
  options : List O → R
  /-- `Value.Reflect(t)`: the value as a `t`, or `ErrBadCast`. -/
  reflect : V → GoType → Except Err R
  /-- `reflect.Value.Type()`. -/
  typeOf : R → GoType

variable {V O B R : Type} (D : Dispatch V O B R)

/-- The callable for a built-in: by the return type, or by the declaration's kinds. -/
def lookupCallable (returnType : Kind) (bd : BuiltinDecl) : Option (Callable V R) :=
  if returnType ≠ Kind.none then D.callables returnType bd.name
  else bd.kinds.findSome? (D.callables · bd.name)

/-- The indices of `for i := start; i < stop; i++` over `int`. -/
def intRange (start stop : Int) : List Int :=
  (List.range (stop - start).toNat).map fun (j : Nat) => start + j

/-- The loop over the regular parameters: `In(i)` and `args[i - len(PrototypeIn)]`, for `i`
from `len(PrototypeIn)` below `numIn`. -/
def reflectRegular (c : FuncType) (numIn : Nat) (args : List V) : Except Err (List R) :=
  (List.range' prototypeIn.length (numIn - prototypeIn.length)).mapM fun (i : Nat) => do
    let param ← (index c.ins i).mapError .panic
    let arg ← (index args ↑(i - prototypeIn.length)).mapError .panic
    D.reflect arg param

/-- The loop over the variadic arguments, from `numIn - len(PrototypeIn)` below `len(args)`,
each reflected to `In(numIn).Elem()`, the variadic element type. -/
def reflectVariadic (c : FuncType) (numIn : Nat) (args : List V) : Except Err (List R) :=
  match c.variadic with
  | none => pure []
  | some elem =>
    (intRange ((numIn : Int) - prototypeIn.length) args.length).mapM fun i => do
      let arg ← (index args i).mapError .panic
      D.reflect arg elem

/-- The prototype prefix of the call. -/
def prefixArgs (b : Option B) (v : V) (opts : List O) : List R :=
  [D.context b, D.client, D.value v, D.options (opts ++ D.extraSolveOpts)]

/-- `c.Call(ins)`: `reflect`'s checks, then the callable; an error result comes back with
the frame backtrace. -/
def callReflect (callable : Callable V R) (ins : List R) : Except Err V :=
  match callable.call.callCheck (ins.map D.typeOf) with
  | some m => .error (.panic m)
  | none => (callable.run ins).mapError .external

/-- The arity error; `%s` of the declaration is taken to print its name. -/
def arityMessage (name : String) (expected : Int) (got : Nat) : String :=
  "\x60" ++ name ++ "\x60 expected " ++ toString expected ++ " args, got " ++ toString got

/-- `CodeGen.EmitBuiltinDecl`, for the return type the context carries. -/
def emitBuiltinDecl (returnType : Kind) (bd : BuiltinDecl) (args : List V) (opts : List O)
    (b : Option B) (v : V) : Except Err V :=
  match lookupCallable D returnType bd with
  | none => .error (.internal ("unrecognized builtin \x60" ++ bd.name ++ "\x60"))
  | some callable =>
    let c := callable.call
    let numIn := if c.isVariadic then c.numIn - 1 else c.numIn
    let expected : Int := (numIn : Int) - prototypeIn.length
    if (args.length : Int) < expected then
      .error (.internal (arityMessage bd.name expected args.length))
    else do
      let regular ← reflectRegular D c numIn args
      let variadic ← reflectVariadic D c numIn args
      callReflect D callable (prefixArgs D b v opts ++ regular ++ variadic)

/-! ## The index loops -/

/-- A loop over `idx 0, …, idx (n-1)` whose body at `idx j` is `g xs[j]` is `mapM g xs`. -/
theorem mapM_range_map {ι α β ε : Type} {f : ι → Except ε β} {g : α → Except ε β} :
    ∀ (xs : List α) (idx : Nat → ι), (∀ (j : Nat) (h : j < xs.length), f (idx j) = g xs[j]) →
      ((List.range xs.length).map idx).mapM f = xs.mapM g
  | [], _, _ => rfl
  | x :: xs, idx, hf => by
    rw [List.length_cons, List.range_succ_eq_map, List.map_cons, List.map_map, List.mapM_cons,
      List.mapM_cons, hf 0 (Nat.zero_lt_succ _),
      mapM_range_map xs (idx ∘ Nat.succ) fun j h => hf (j + 1) (Nat.succ_lt_succ h)]
    rfl

theorem reflectRegular_eq {c : FuncType} (hc : prototypeIn.length ≤ c.params.length)
    {args : List V} (ha : c.params.length - prototypeIn.length ≤ args.length) :
    reflectRegular D c c.params.length args =
      (args.zip (c.params.drop prototypeIn.length)).mapM fun a => D.reflect a.1 a.2 := by
  have hlen : (args.zip (c.params.drop prototypeIn.length)).length =
      c.params.length - prototypeIn.length := by
    simp only [List.length_zip, List.length_drop]; omega
  rw [reflectRegular, List.range'_eq_map_range, ← hlen]
  refine mapM_range_map _ _ fun j hj => ?_
  rw [hlen] at hj
  have hi : prototypeIn.length + j < c.params.length := by omega
  have hp : index c.ins ↑(prototypeIn.length + j) = .ok c.params[prototypeIn.length + j] := by
    rw [index_of_lt (by simp only [FuncType.ins, List.length_append]; omega)]
    exact congrArg _ (List.getElem_append_left hi)
  have ha' : index args ↑(prototypeIn.length + j - prototypeIn.length) = .ok args[j] := by
    rw [Nat.add_sub_cancel_left, index_of_lt]
  simp only [hp, ha', Except.mapError, bind, Except.bind, List.getElem_zip, List.getElem_drop]

theorem reflectVariadic_eq {c : FuncType} {numIn : Nat} (hn : prototypeIn.length ≤ numIn)
    {args : List V} (ha : numIn - prototypeIn.length ≤ args.length) :
    reflectVariadic D c numIn args =
      match c.variadic with
      | none => pure []
      | some e => (args.drop (numIn - prototypeIn.length)).mapM (D.reflect · e) := by
  rcases hv : c.variadic with _ | e
  · simp only [reflectVariadic, hv]
  · have hr : intRange ((numIn : Int) - prototypeIn.length) args.length =
        (List.range (args.drop (numIn - prototypeIn.length)).length).map
          fun j => ((numIn - prototypeIn.length + j : Nat) : Int) := by
      have hk : ((args.length : Int) - ((numIn : Int) - prototypeIn.length)).toNat =
          args.length - (numIn - prototypeIn.length) := by omega
      simp only [intRange, List.length_drop, hk]
      congr 1
      funext j
      omega
    simp only [reflectVariadic, hv, hr]
    refine mapM_range_map _ _ fun j hj => ?_
    rw [List.length_drop] at hj
    simp only [index_of_lt (show numIn - prototypeIn.length + j < args.length by omega),
      Except.mapError, bind, Except.bind, List.getElem_drop]

/-! ## What `EmitBuiltinDecl` does -/

/-- The arguments reflected as the specification describes them: `args[j]` to the `j`-th
parameter after the prefix, and every argument past those to the variadic element type. -/
def reflectArgs (c : FuncType) (args : List V) : Except Err (List R) := do
  let regular ← (args.zip (c.params.drop prototypeIn.length)).mapM fun a => D.reflect a.1 a.2
  let variadic ← match c.variadic with
    | none => pure []
    | some e => (args.drop (c.params.length - prototypeIn.length)).mapM (D.reflect · e)
  pure (regular ++ variadic)

theorem numIn_of_variadic (c : FuncType) :
    (if c.isVariadic then c.numIn - 1 else c.numIn) = c.params.length := by
  rw [FuncType.numIn_eq]; split <;> simp

/-- For a callable that `CheckPrototype` accepts: the arity error, or the arguments
reflected and `Call` on them after the prefix. -/
theorem emitBuiltinDecl_eq {returnType : Kind} {bd : BuiltinDecl} {callable : Callable V R}
    (hl : lookupCallable D returnType bd = some callable)
    (hc : checkPrototype callable.typeName callable.call = .ok) (args : List V) (opts : List O)
    (b : Option B) (v : V) :
    emitBuiltinDecl D returnType bd args opts b v =
      if args.length < callable.call.params.length - prototypeIn.length then
        .error (.internal (arityMessage bd.name
          ↑(callable.call.params.length - prototypeIn.length) args.length))
      else reflectArgs D callable.call args >>= fun rs =>
        callReflect D callable (prefixArgs D b v opts ++ rs) := by
  have hp := checkPrototype_params_length hc
  have he : ((callable.call.params.length : Int) - prototypeIn.length) =
      ↑(callable.call.params.length - prototypeIn.length) := by omega
  simp only [emitBuiltinDecl, hl, numIn_of_variadic, he, Int.ofNat_lt]
  split_ifs with ha
  · rfl
  · rw [reflectRegular_eq D hp (by omega), reflectVariadic_eq D hp (by omega)]
    cases hv : callable.call.variadic <;>
      simp only [reflectArgs, hv, bind_assoc, pure_bind, List.append_assoc, List.append_nil]

theorem forall₂_of_mapM_eq_ok {α β ε : Type} {f : α → Except ε β} :
    ∀ {xs : List α} {ys : List β}, xs.mapM f = .ok ys → List.Forall₂ (fun x y => f x = .ok y) xs ys
  | [], _, h => by cases h; exact .nil
  | x :: xs, ys, h => by
    rw [List.mapM_cons] at h
    rcases hx : f x with e | y <;> rcases hxs : xs.mapM f with e' | ys' <;>
      simp only [hx, hxs, bind, Except.bind, pure, Except.pure, reduceCtorEq, Except.ok.injEq] at h
    exact h ▸ .cons hx (forall₂_of_mapM_eq_ok hxs)

/-- What a successful reflection is made of: the regular arguments, each reflected to its
parameter, then, for a variadic callable, every later argument reflected to the element
type. -/
theorem reflectArgs_eq_ok {c : FuncType} {args : List V} {rs : List R}
    (h : reflectArgs D c args = .ok rs) :
    ∃ regular variadic, rs = regular ++ variadic ∧
      List.Forall₂ (fun a r => D.reflect a.1 a.2 = .ok r)
        (args.zip (c.params.drop prototypeIn.length)) regular ∧
      match c.variadic with
      | none => variadic = []
      | some e => List.Forall₂ (fun a r => D.reflect a e = .ok r)
          (args.drop (c.params.length - prototypeIn.length)) variadic := by
  unfold reflectArgs at h
  rcases hr : (args.zip (c.params.drop prototypeIn.length)).mapM (fun a => D.reflect a.1 a.2)
    with e | regular <;> rw [hr] at h
  · cases h
  rcases hv : c.variadic with _ | el <;> simp only [hv] at h ⊢
  · cases h
    exact ⟨regular, [], rfl, forall₂_of_mapM_eq_ok hr, rfl⟩
  · rcases hw : (args.drop (c.params.length - prototypeIn.length)).mapM (D.reflect · el)
      with e | variadic <;> rw [hw] at h
    · cases h
    · cases h
      exact ⟨regular, variadic, rfl, forall₂_of_mapM_eq_ok hr, forall₂_of_mapM_eq_ok hw⟩

/-- How many values the reflection gives: one for each argument up to the regular
parameters, and, for a variadic callable, one for each argument past them. -/
theorem length_reflectArgs {c : FuncType} {args : List V} {rs : List R}
    (h : reflectArgs D c args = .ok rs) :
    rs.length = min args.length (c.params.length - prototypeIn.length) +
      if c.isVariadic then args.length - (c.params.length - prototypeIn.length) else 0 := by
  obtain ⟨regular, variadic, rfl, hr, hv⟩ := reflectArgs_eq_ok D h
  rw [List.length_append, ← hr.length_eq, List.length_zip, List.length_drop]
  rcases hc : c.variadic with _ | e <;> simp only [hc] at hv <;>
    simp only [FuncType.isVariadic, hc, Option.isSome, if_true, Bool.false_eq_true, if_false]
  · rw [hv, List.length_nil]
  · rw [← hv.length_eq, List.length_drop]

theorem zip_take_left {α β : Type} {l₁ : List α} {l₂ : List β} {n : Nat} (h : l₂.length ≤ n) :
    (l₁.take n).zip l₂ = l₁.zip l₂ := by
  rw [← List.take_of_length_le h, List.zip_eq_zipWith, List.zip_eq_zipWith, ← List.take_zipWith,
    List.take_of_length_le h, List.take_of_length_le]
  simp only [List.length_zipWith]
  omega

/-- A callable that is not variadic reads the arguments up to its parameters and no more. -/
theorem reflectArgs_take {c : FuncType} (hv : c.variadic = none) (args : List V) :
    reflectArgs D c args = reflectArgs D c (args.take (c.params.length - prototypeIn.length)) := by
  simp only [reflectArgs, hv, zip_take_left (List.length_drop _ _).le]

/-- A callable that is not variadic, given more arguments than it has parameters after the
prefix: `EmitBuiltinDecl` raises no arity error, and calls `Call` on the prefix and the first
arguments, one for each parameter; the others are never read. -/
theorem emitBuiltinDecl_surplus {returnType : Kind} {bd : BuiltinDecl} {callable : Callable V R}
    (hl : lookupCallable D returnType bd = some callable)
    (hc : checkPrototype callable.typeName callable.call = .ok) (hv : callable.call.variadic = none)
    {args : List V} (hs : callable.call.params.length - prototypeIn.length < args.length)
    (opts : List O) (b : Option B) (v : V) :
    emitBuiltinDecl D returnType bd args opts b v =
      reflectArgs D callable.call (args.take (callable.call.params.length - prototypeIn.length)) >>=
        fun rs => callReflect D callable (prefixArgs D b v opts ++ rs) := by
  rw [emitBuiltinDecl_eq D hl hc, if_neg (by omega), reflectArgs_take D hv]

/-! ## `reflect`'s checks on the call -/

/-- `Value.Reflect(t)` gives a value of a type that can be passed as a `t`. -/
def Dispatch.WellTyped : Prop := ∀ v t r, D.reflect v t = .ok r → (D.typeOf r).assignableTo t

section WellTyped

variable {D} (hD : D.WellTyped)
include hD

theorem forall₂_reflected : ∀ {ps : List (V × GoType)} {rs : List R},
    List.Forall₂ (fun a r => D.reflect a.1 a.2 = .ok r) ps rs →
      List.Forall₂ (fun x t => x.assignableTo t) (rs.map D.typeOf) (ps.map Prod.snd)
  | _, _, .nil => .nil
  | _, _, .cons h hs => .cons (hD _ _ _ h) (forall₂_reflected hs)

theorem forall_mem_reflected {e : GoType} : ∀ {xs : List V} {rs : List R},
    List.Forall₂ (fun a r => D.reflect a e = .ok r) xs rs → ∀ y ∈ rs.map D.typeOf, y.assignableTo e
  | _, _, .nil => by simp
  | _, _, .cons h hs => by
    rw [List.map_cons, List.forall_mem_cons]
    exact ⟨hD _ _ _ h, forall_mem_reflected hs⟩

/-- With enough arguments, all of them reflected, `Call` panics exactly when a value of the
prefix is not assignable to the callable's parameter at its position: the reflected
arguments pass every check. -/
theorem callCheck_reflectArgs_iff {c : FuncType} (hp : prototypeIn.length ≤ c.params.length)
    {args : List V} (ha : c.params.length - prototypeIn.length ≤ args.length) {rs : List R}
    (hrs : reflectArgs D c args = .ok rs) (b : Option B) (v : V) (opts : List O) :
    c.callCheck ((prefixArgs D b v opts ++ rs).map D.typeOf) = none ↔
      List.Forall₂ (fun x t => x.assignableTo t) ((prefixArgs D b v opts).map D.typeOf)
        (c.params.take prototypeIn.length) := by
  obtain ⟨regular, variadic, rfl, hr, hv⟩ := reflectArgs_eq_ok D hrs
  have hreg : List.Forall₂ (fun x t => x.assignableTo t) (regular.map D.typeOf)
      (c.params.drop prototypeIn.length) := by
    have := forall₂_reflected hD hr
    rwa [List.map_snd_zip _ _ (by rw [List.length_drop]; omega)] at this
  have hvar : match c.variadic with
      | none => variadic.map D.typeOf = []
      | some e => ∀ y ∈ variadic.map D.typeOf, y.assignableTo e := by
    cases he : c.variadic <;> simp only [he] at hv ⊢
    · rw [hv, List.map_nil]
    · exact forall_mem_reflected hD hv
  have hpre : ((prefixArgs D b v opts).map D.typeOf).length = prototypeIn.length := rfl
  have hl : ((prefixArgs D b v opts).map D.typeOf ++ regular.map D.typeOf).length =
      c.params.length := by
    rw [List.length_append, hpre, hreg.length_eq, List.length_drop]
    omega
  rw [List.map_append, List.map_append, ← List.append_assoc, FuncType.callCheck_append_eq_none_iff hl hvar]
  constructor
  · intro h
    have := List.forall₂_take_append _ _ _ ((List.take_append_drop prototypeIn.length c.params).symm ▸ h)
    rwa [List.take_left' (by rw [hpre, List.length_take, Nat.min_eq_left hp])] at this
  · intro h
    exact List.take_append_drop prototypeIn.length c.params ▸ List.rel_append h hreg

/-- For a callable that `CheckPrototype` accepts, when the values of the prefix are assignable
to its first parameters, `EmitBuiltinDecl` never panics in `reflect`: it returns the arity
error, the first error of `Reflect`, or what the callable returns. -/
theorem emitBuiltinDecl_of_prefix_assignable {returnType : Kind} {bd : BuiltinDecl}
    {callable : Callable V R} (hl : lookupCallable D returnType bd = some callable)
    (hc : checkPrototype callable.typeName callable.call = .ok) (args : List V) (opts : List O)
    (b : Option B) (v : V)
    (hpre : List.Forall₂ (fun x t => x.assignableTo t) ((prefixArgs D b v opts).map D.typeOf)
      (callable.call.params.take prototypeIn.length)) :
    emitBuiltinDecl D returnType bd args opts b v =
      if args.length < callable.call.params.length - prototypeIn.length then
        .error (.internal (arityMessage bd.name
          ↑(callable.call.params.length - prototypeIn.length) args.length))
      else reflectArgs D callable.call args >>= fun rs =>
        (callable.run (prefixArgs D b v opts ++ rs)).mapError .external := by
  rw [emitBuiltinDecl_eq D hl hc]
  split_ifs with ha
  · rfl
  rcases hrs : reflectArgs D callable.call args with e | rs
  · rfl
  · have hp := checkPrototype_params_length hc
    simp only [bind, Except.bind, callReflect,
      (callCheck_reflectArgs_iff hD hp (by omega) hrs b v opts).mpr hpre]

/-- With enough arguments, all of them reflected, `EmitBuiltinDecl` panics exactly when a value
of the prefix is not assignable to the callable's parameter at its position. -/
theorem emitBuiltinDecl_panics_iff {returnType : Kind} {bd : BuiltinDecl}
    {callable : Callable V R} (hl : lookupCallable D returnType bd = some callable)
    (hc : checkPrototype callable.typeName callable.call = .ok) {args : List V}
    (ha : callable.call.params.length - prototypeIn.length ≤ args.length) {rs : List R}
    (hrs : reflectArgs D callable.call args = .ok rs) (opts : List O) (b : Option B) (v : V) :
    (∃ m, emitBuiltinDecl D returnType bd args opts b v = .error (.panic m)) ↔
      ¬List.Forall₂ (fun x t => x.assignableTo t) ((prefixArgs D b v opts).map D.typeOf)
        (callable.call.params.take prototypeIn.length) := by
  rw [emitBuiltinDecl_eq D hl hc, if_neg (Nat.not_lt.mpr ha), hrs,
    ← callCheck_reflectArgs_iff hD (checkPrototype_params_length hc) ha hrs b v opts]
  simp only [bind, Except.bind, callReflect]
  rcases callable.call.callCheck ((prefixArgs D b v opts ++ rs).map D.typeOf) with _ | m
  · cases callable.run (prefixArgs D b v opts ++ rs) <;> simp [Except.mapError]
  · simp

end WellTyped

/-! ## A registry over types -/

/-- The context the code generator passes, as `reflect.ValueOf(ctx)` sees it. -/
def valueCtxType : GoType := .concrete "*context.valueCtx" ["Deadline", "Done", "Err", "String", "Value"]

/-- A dispatch in which a value is known by its dynamic type: `Reflect(t)` succeeds when the
value's type is assignable to `t`, and the context is a `*context.valueCtx`. -/
def typeDispatch (callables : Kind → String → Option (Callable GoType GoType)) :
    Dispatch GoType Unit Unit GoType where
  callables := callables
  extraSolveOpts := []
  context _ := valueCtxType
  client := clientType
  value v := v
  options _ := optionType
  reflect v t := if v.assignableTo t then .ok t else .error .badCast
  typeOf t := t

def stringType : GoType := .concrete "string" []

/-- A callable of one `string` parameter after the prefix. -/
def formatCallable : Callable GoType GoType :=
  ⟨"codegen.Format", ⟨prototypeIn ++ [stringType], none, prototypeOut⟩, fun _ => .ok stringType⟩

theorem typeDispatch_wellTyped (callables : Kind → String → Option (Callable GoType GoType)) :
    (typeDispatch callables).WellTyped := by
  intro v t r h
  simp only [typeDispatch] at h
  split_ifs at h
  cases h
  exact Bool.or_eq_true_iff.mpr (.inl (beq_self_eq_true t))

/-- `format` on a `string`, with an incoming `Value`: the prefix fits, and the call goes
through `reflect`'s checks to the callable. -/
theorem emitBuiltinDecl_format_no_panic :
    (typeDispatch fun _ _ => some formatCallable).WellTyped ∧
      lookupCallable (typeDispatch fun _ _ => some formatCallable) Kind.none
        ⟨"format", [Kind.string]⟩ = some formatCallable ∧
      checkPrototype formatCallable.typeName formatCallable.call = .ok ∧
      List.Forall₂ (fun x t => x.assignableTo t)
        ((prefixArgs (typeDispatch fun _ _ => some formatCallable) none valueType []).map
          (typeDispatch fun _ _ => some formatCallable).typeOf)
        (formatCallable.call.params.take prototypeIn.length) ∧
      emitBuiltinDecl (typeDispatch fun _ _ => some formatCallable) Kind.none
          ⟨"format", [Kind.string]⟩ [stringType] [] none valueType =
        if [stringType].length < formatCallable.call.params.length - prototypeIn.length then
          .error (.internal (arityMessage "format"
            ↑(formatCallable.call.params.length - prototypeIn.length) [stringType].length))
        else reflectArgs (typeDispatch fun _ _ => some formatCallable) formatCallable.call
            [stringType] >>= fun rs =>
          (formatCallable.run (prefixArgs (typeDispatch fun _ _ => some formatCallable) none
            valueType [] ++ rs)).mapError .external :=
  have hD := typeDispatch_wellTyped fun _ _ => some formatCallable
  have hl : lookupCallable (typeDispatch fun _ _ => some formatCallable) Kind.none
      ⟨"format", [Kind.string]⟩ = some formatCallable := rfl
  have hc : checkPrototype formatCallable.typeName formatCallable.call = .ok := by decide
  have hpre : List.Forall₂ (fun x t => x.assignableTo t)
      ((prefixArgs (typeDispatch fun _ _ => some formatCallable) none valueType []).map
        (typeDispatch fun _ _ => some formatCallable).typeOf)
      (formatCallable.call.params.take prototypeIn.length) := by decide
  ⟨hD, hl, hc, hpre, emitBuiltinDecl_of_prefix_assignable hD hl hc [stringType] [] none valueType hpre⟩

/-- `format`, whose callable takes one `string` and is not variadic, called with more
arguments: it raises no arity error and runs as a call with the first argument alone, the
others dropped unread; so with an `int` after the string, the call succeeds. -/
theorem emitBuiltinDecl_format_surplus :
    checkPrototype formatCallable.typeName formatCallable.call = .ok ∧
      (∀ (a a' : GoType) (rest : List GoType) (v : GoType),
        emitBuiltinDecl (typeDispatch fun _ _ => some formatCallable) Kind.none
            ⟨"format", [Kind.string]⟩ (a :: a' :: rest) [] none v =
          emitBuiltinDecl (typeDispatch fun _ _ => some formatCallable) Kind.none
            ⟨"format", [Kind.string]⟩ [a] [] none v) ∧
      emitBuiltinDecl (typeDispatch fun _ _ => some formatCallable) Kind.none
          ⟨"format", [Kind.string]⟩ [stringType, .concrete "int" []] [] none valueType =
        .ok stringType := by
  have hl : lookupCallable (typeDispatch fun _ _ => some formatCallable) Kind.none
      ⟨"format", [Kind.string]⟩ = some formatCallable := rfl
  have hc : checkPrototype formatCallable.typeName formatCallable.call = .ok := by decide
  have hk : formatCallable.call.params.length - prototypeIn.length = 1 := by decide
  refine ⟨hc, fun a a' rest v => ?_, ?_⟩
  · rw [emitBuiltinDecl_surplus _ hl hc rfl (by simp only [hk, List.length_cons]; omega),
      emitBuiltinDecl_eq _ hl hc, if_neg (by rw [hk, List.length_singleton]; exact Nat.lt_irrefl 1)]
    rfl
  · rw [emitBuiltinDecl_surplus _ hl hc rfl (by decide)]
    rfl

/-! ## A context parameter with one more method -/

def tracingContextType : GoType :=
  .iface "codegen.TracingContext" ["Deadline", "Done", "Err", "Trace", "Value"]

/-- A callable whose `ctx` parameter is a `TracingContext`. -/
def tracedCallable : Callable GoType GoType :=
  ⟨"codegen.Traced", ⟨[tracingContextType, clientType, valueType, optionType], none,
    [valueType, errorType]⟩, fun _ => .ok valueType⟩

/-- Start-up accepts the callable (`TracingContext` implements `context.Context`), and every
call of it panics in `reflect`: the context passed is not a `TracingContext`. -/
theorem emitBuiltinDecl_traced_panics :
    initCallables [(tracedCallable.typeName, tracedCallable.call)] = .ok ∧
      ∀ (args : List GoType) (opts : List Unit) (v : GoType),
        emitBuiltinDecl (typeDispatch fun _ _ => some tracedCallable) Kind.none
          ⟨"traced", [Kind.filesystem]⟩ args opts none v =
          .error (.panic "reflect: Call using *context.valueCtx as type codegen.TracingContext") := by
  have hc : checkPrototype tracedCallable.typeName tracedCallable.call = .ok := by decide
  refine ⟨(initCallables_ok_iff _).mpr (by simpa using hc), fun args opts v => ?_⟩
  have hl : lookupCallable (typeDispatch fun _ _ => some tracedCallable) Kind.none
      ⟨"traced", [Kind.filesystem]⟩ = some tracedCallable := rfl
  rw [emitBuiltinDecl_eq _ hl hc]
  simp [tracedCallable, reflectArgs]
  rfl

/-- The traced callable with no arguments: everything is reflected, and the call panics
because the context does not fit its first parameter. -/
theorem emitBuiltinDecl_traced_panics_iff :
    lookupCallable (typeDispatch fun _ _ => some tracedCallable) Kind.none
        ⟨"traced", [Kind.filesystem]⟩ = some tracedCallable ∧
      checkPrototype tracedCallable.typeName tracedCallable.call = .ok ∧
      tracedCallable.call.params.length - prototypeIn.length ≤ ([] : List GoType).length ∧
      reflectArgs (typeDispatch fun _ _ => some tracedCallable) tracedCallable.call [] = .ok [] ∧
      ((∃ m, emitBuiltinDecl (typeDispatch fun _ _ => some tracedCallable) Kind.none
          ⟨"traced", [Kind.filesystem]⟩ [] [] none valueType = .error (.panic m)) ↔
        ¬List.Forall₂ (fun x t => x.assignableTo t)
          ((prefixArgs (typeDispatch fun _ _ => some tracedCallable) none valueType []).map
            (typeDispatch fun _ _ => some tracedCallable).typeOf)
          (tracedCallable.call.params.take prototypeIn.length)) :=
  have hl : lookupCallable (typeDispatch fun _ _ => some tracedCallable) Kind.none
      ⟨"traced", [Kind.filesystem]⟩ = some tracedCallable := rfl
  have hc : checkPrototype tracedCallable.typeName tracedCallable.call = .ok := by decide
  have ha : tracedCallable.call.params.length - prototypeIn.length ≤ ([] : List GoType).length :=
    by decide
  have hrs : reflectArgs (typeDispatch fun _ _ => some tracedCallable) tracedCallable.call [] =
      .ok [] := rfl
  ⟨hl, hc, ha, hrs, emitBuiltinDecl_panics_iff (typeDispatch_wellTyped _) hl hc ha hrs [] none
    valueType⟩

end Hlb.Codegen
