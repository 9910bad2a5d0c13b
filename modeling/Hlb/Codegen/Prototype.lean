/-
  Hlb.Codegen.Prototype — `CheckPrototype` and `initCallables`: at start-up every
  callable's `Call` method is checked against the prototype
  `Call(ctx context.Context, cln *client.Client, val Value, opts Option) (Value, error)`.

  `CheckPrototype` takes the callable's parameter and result types. It refuses a callable
  with fewer parameters than the prototype or another number of results; then, position by
  position over the prototype's parameters and then its results, a parameter that is an
  interface must `Implements` the prototype's type there and any other must be that type.
  `Implements` panics when the prototype's type is not an interface (the client pointer,
  the option slice). The `Prototype` type is not in the sources; its `Call` is taken from
  the specification.

  Implementing the prototype's interface is the right test for a result (what the callable
  returns is then a `Value` or an `error`) and the wrong one for a parameter: a parameter
  interface with more methods than the prototype's accepts fewer values than the code
  generator passes.

  Proved:
  - `matchAll_eq_ok_true` / `checkPrototype_eq_ok`: what an accepted callable's types are,
    position by position (`accepts`).
  - `checkPrototype_results_assignable`: every value an accepted callable returns is
    assignable to the prototype's result type.
  - `checkPrototype_panics`: an interface parameter at a position where the prototype's
    type is not an interface makes `CheckPrototype` panic.
  - `initCallables_ok_iff`: start-up succeeds exactly when every callable is accepted.
  - `initCallables_perm`: the order Go ranges over the registry in changes neither whether
    start-up succeeds, reports mismatches or panics, nor which mismatch messages it reports.
-/
import Hlb.Go.Reflect

namespace Hlb.Codegen

open Hlb.Go

/-! ## The prototype -/

/-- Modelled from the spec: `context.Context`. -/
def contextType : GoType := .iface "context.Context" ["Deadline", "Done", "Err", "Value"]

/-- Modelled from the spec: the build client handle, a pointer. -/
def clientType : GoType := .concrete "*client.Client" []

/-- Modelled from the spec: `Value`, an interface, with the methods the code generator
calls on values. -/
def valueType : GoType :=
  .iface "codegen.Value" ["Filesystem", "Kind", "Option", "Reflect", "Request", "String"]

/-- Modelled from the spec: `Option`, a list of option fragments (a slice type). -/
def optionType : GoType := .concrete "codegen.Option" []

def errorType : GoType := .iface "error" ["Error"]

/-- Modelled from the spec: the type of `Prototype.Call` as `MethodByName` gives it, the
receiver first. -/
def prototypeCall : FuncType :=
  ⟨[.concrete "codegen.Prototype" [], contextType, clientType, valueType, optionType], none,
    [valueType, errorType]⟩

/-- `PrototypeIn`: `In(i)` for `i` from 1, past the receiver. -/
def prototypeIn : List GoType := prototypeCall.ins.drop 1

def prototypeOut : List GoType := prototypeCall.outs

/-! ## `CheckPrototype` -/

/-- One position of the check: `true` when it passes, the error a panic. -/
def paramMatches (param proto : GoType) : Except String Bool :=
  if param.isInterface then param.implements proto else .ok (param == proto)

/-- The loop over the prototype's positions; it ends at the first that fails. -/
def matchAll : List GoType → List GoType → Except String Bool
  | p :: ps, q :: qs => do if ← paramMatches p q then matchAll ps qs else pure false
  | _, _ => pure true

/-- What a call of `CheckPrototype` does. -/
inductive CheckResult where
  | ok
  | mismatch (msg : String)
  | panic (msg : String)
  deriving DecidableEq, Repr

/-- `fmt`'s `%s` of a `[]reflect.Type`. -/
def typeList (ts : List GoType) : String := "[" ++ " ".intercalate (ts.map GoType.name) ++ "]"

def mismatchMessage (callable : String) (c : FuncType) : String :=
  "expected (" ++ callable ++ ").Call(" ++ typeList c.ins ++ ")(" ++ typeList c.outs ++
    ") to match Call(" ++ typeList prototypeIn ++ ")(" ++ typeList prototypeOut ++ ")"

/-- `CheckPrototype(callable)`, for a callable of type name `callable` whose `Call` has
type `c`. -/
def checkPrototype (callable : String) (c : FuncType) : CheckResult :=
  if c.numIn < prototypeIn.length ∨ c.outs.length ≠ prototypeOut.length then
    .mismatch (mismatchMessage callable c)
  else
    match matchAll c.ins prototypeIn with
    | .error m => .panic m
    | .ok false => .mismatch (mismatchMessage callable c)
    | .ok true =>
      match matchAll c.outs prototypeOut with
      | .error m => .panic m
      | .ok false => .mismatch (mismatchMessage callable c)
      | .ok true => .ok

/-- `initCallables`' loop over the registry (in its order: Go's map order is not fixed):
the mismatch messages joined by newlines, or the first panic. -/
def initCallables : List (String × FuncType) → CheckResult
  | [] => .ok
  | (name, c) :: rest =>
    match checkPrototype name c, initCallables rest with
    | .panic m, _ => .panic m
    | _, .panic m => .panic m
    | .ok, r => r
    | .mismatch m, .ok => .mismatch m
    | .mismatch m, .mismatch m' => .mismatch (m ++ "\n" ++ m')

/-! ## What an accepted callable looks like -/

/-- The test a position passes, when it does not panic. -/
def accepts (param proto : GoType) : Bool :=
  if param.isInterface then proto.isInterface && param.hasMethodsOf proto else param == proto

theorem paramMatches_ok {p q : GoType} {b : Bool} (h : paramMatches p q = .ok b) :
    b = accepts p q := by
  unfold paramMatches GoType.implements at h
  unfold accepts
  split_ifs at h ⊢ <;> cases h <;> simp_all

theorem paramMatches_error {p q : GoType} {m : String} (h : paramMatches p q = .error m) :
    p.isInterface ∧ q.isInterface = false := by
  unfold paramMatches GoType.implements at h
  split_ifs at h
  · cases h; simp_all

theorem matchAll_eq_ok_true {ps qs : List GoType} :
    matchAll ps qs = .ok true ↔ ∀ pq ∈ ps.zip qs, accepts pq.1 pq.2 := by
  induction ps generalizing qs with
  | nil => simp [matchAll]; rfl
  | cons p ps ih =>
    cases qs with
    | nil => simp [matchAll]; rfl
    | cons q qs =>
      rw [List.zip_cons_cons, List.forall_mem_cons, ← ih]
      rcases hm : paramMatches p q with m | b
      · have := paramMatches_error hm
        simp [matchAll, hm, bind, Except.bind, accepts, this]
      · obtain rfl := paramMatches_ok hm
        by_cases ha : accepts p q = true <;> simp [matchAll, hm, bind, Except.bind, ha, pure,
          Except.pure]

/-- The positions of an accepted list pass `accepts`. -/
theorem accepts_of_matchAll {ps qs : List GoType} (h : matchAll ps qs = .ok true) {i : Nat}
    {p q : GoType} (hp : ps[i]? = some p) (hq : qs[i]? = some q) : accepts p q :=
  matchAll_eq_ok_true.mp h (p, q) (List.getElem?_mem (List.getElem?_zip_eq_some.mpr ⟨hp, hq⟩))

theorem checkPrototype_eq_ok {callable : String} {c : FuncType} :
    checkPrototype callable c = .ok ↔
      prototypeIn.length ≤ c.numIn ∧ c.outs.length = prototypeOut.length ∧
        matchAll c.ins prototypeIn = .ok true ∧ matchAll c.outs prototypeOut = .ok true := by
  unfold checkPrototype
  split_ifs with hl
  · simp only [reduceCtorEq, false_iff]
    omega
  · rcases h1 : matchAll c.ins prototypeIn with m | (_ | _) <;>
      rcases h2 : matchAll c.outs prototypeOut with m' | (_ | _) <;> simp_all

/-- The test `accepts` is sound for results: what a parameter of type `p` holds can be
passed where `q` is expected. -/
theorem accepts_assignable {p q : GoType} (h : accepts p q) {t : GoType} (ht : t.assignableTo p) :
    t.assignableTo q := by
  unfold accepts at h
  split at h
  · simp only [Bool.and_eq_true] at h
    simp only [GoType.assignableTo, Bool.or_eq_true, beq_iff_eq, Bool.and_eq_true] at ht ⊢
    rcases ht with rfl | ⟨-, ht⟩
    · exact Or.inr h
    · exact Or.inr ⟨h.1, GoType.hasMethodsOf_trans ht h.2⟩
  · simp only [beq_iff_eq] at h
    exact h ▸ ht

/-- Every value an accepted callable returns can be taken as the prototype's result. -/
theorem checkPrototype_results_assignable {callable : String} {c : FuncType}
    (h : checkPrototype callable c = .ok) (i : Nat) {p q : GoType} (hp : c.outs[i]? = some p)
    (hq : prototypeOut[i]? = some q) (t : GoType) (ht : t.assignableTo p) : t.assignableTo q :=
  accepts_assignable (accepts_of_matchAll (checkPrototype_eq_ok.mp h).2.2.2 hp hq) ht

/-- A callable of the prototype's own type returns a filesystem value, which is a `Value`. -/
theorem checkPrototype_results_filesystem :
    checkPrototype "codegen.Scratch" ⟨prototypeIn, none, prototypeOut⟩ = .ok ∧
      (⟨prototypeIn, none, prototypeOut⟩ : FuncType).outs[0]? = some valueType ∧
      prototypeOut[0]? = some valueType ∧
      (GoType.concrete "codegen.Filesystem" valueType.methodSet).assignableTo valueType ∧
      (GoType.concrete "codegen.Filesystem" valueType.methodSet).assignableTo valueType :=
  have h : checkPrototype "codegen.Scratch" ⟨prototypeIn, none, prototypeOut⟩ = .ok := by decide
  have hp : (⟨prototypeIn, none, prototypeOut⟩ : FuncType).outs[0]? = some valueType := rfl
  have hq : prototypeOut[0]? = some valueType := rfl
  have ht : (GoType.concrete "codegen.Filesystem" valueType.methodSet).assignableTo valueType := by
    decide
  ⟨h, hp, hq, ht, checkPrototype_results_assignable h 0 hp hq _ ht⟩

@[simp] theorem length_prototypeIn : prototypeIn.length = 4 := rfl

/-- An accepted callable has a regular parameter for each of the prototype's: the last one,
`Option`, is a named type, never the variadic `[]E`. -/
theorem checkPrototype_params_length {callable : String} {c : FuncType}
    (h : checkPrototype callable c = .ok) : prototypeIn.length ≤ c.params.length := by
  obtain ⟨hl, -, hins, -⟩ := checkPrototype_eq_ok.mp h
  rw [FuncType.numIn_eq, length_prototypeIn] at hl
  rw [length_prototypeIn]
  rcases hv : c.variadic with _ | e
  · simpa [FuncType.isVariadic, hv] using hl
  · by_contra hlt
    have h3 : c.params.length = 3 := by simp [FuncType.isVariadic, hv] at hl; omega
    have := accepts_of_matchAll hins
      (show c.ins[3]? = some (.slice e) by simp [FuncType.ins, hv, List.getElem?_append_right, h3])
      (show prototypeIn[3]? = some optionType by decide)
    simp [accepts, GoType.isInterface, optionType] at this

theorem matchAll_panics {ps qs : List GoType} {i : Nat} {p q : GoType}
    (hpre : ∀ j < i, ∀ p' q', ps[j]? = some p' → qs[j]? = some q' → accepts p' q')
    (hp : ps[i]? = some p) (hq : qs[i]? = some q) (hpi : p.isInterface) (hqi : q.isInterface = false) :
    ∃ m, matchAll ps qs = .error m := by
  induction i generalizing ps qs with
  | zero =>
    cases ps <;> cases qs <;> simp only [List.getElem?_nil, List.getElem?_cons_zero, reduceCtorEq,
      Option.some.injEq] at hp hq
    subst hp hq
    exact ⟨_, by simp only [matchAll, paramMatches, hpi, GoType.implements, hqi]; rfl⟩
  | succ i ih =>
    cases ps <;> cases qs <;> simp only [List.getElem?_nil, List.getElem?_cons_succ, reduceCtorEq] at hp hq
    rename_i p' ps q' qs
    have h0 := hpre 0 (Nat.zero_lt_succ i) p' q' (by simp) (by simp)
    obtain ⟨m, hm⟩ := ih (fun j hj => by simpa using hpre (j + 1) (Nat.succ_lt_succ hj)) hp hq
    refine ⟨m, ?_⟩
    rcases hpm : paramMatches p' q' with m' | b
    · simp [accepts, (paramMatches_error hpm).1, (paramMatches_error hpm).2] at h0
    · obtain rfl := paramMatches_ok hpm
      simp [matchAll, hpm, h0, hm, bind, Except.bind]

/-- A parameter that is an interface where the prototype's type is not one (the client
pointer, the option list), after positions that pass: `Implements` panics. -/
theorem checkPrototype_panics (callable : String) {c : FuncType} {i : Nat} {p q : GoType}
    (hl : prototypeIn.length ≤ c.numIn) (ho : c.outs.length = prototypeOut.length)
    (hpre : ∀ j < i, ∀ p' q', c.ins[j]? = some p' → prototypeIn[j]? = some q' → accepts p' q')
    (hp : c.ins[i]? = some p) (hq : prototypeIn[i]? = some q) (hpi : p.isInterface)
    (hqi : q.isInterface = false) : ∃ m, checkPrototype callable c = .panic m := by
  obtain ⟨m, hm⟩ := matchAll_panics hpre hp hq hpi hqi
  exact ⟨m, by rw [checkPrototype, if_neg (by omega), hm]⟩

/-- A `Call` that takes the `Value` interface where the prototype has the client pointer:
the context passes, and `Implements` panics at the client. -/
theorem checkPrototype_panics_value_client :
    prototypeIn.length ≤ (⟨[contextType, valueType, valueType, optionType], none, prototypeOut⟩ :
        FuncType).numIn ∧
      (⟨[contextType, valueType, valueType, optionType], none, prototypeOut⟩ : FuncType).outs.length =
        prototypeOut.length ∧
      (∀ j < 1, ∀ p' q', (⟨[contextType, valueType, valueType, optionType], none, prototypeOut⟩ :
          FuncType).ins[j]? = some p' → prototypeIn[j]? = some q' → accepts p' q') ∧
      (⟨[contextType, valueType, valueType, optionType], none, prototypeOut⟩ : FuncType).ins[1]? =
        some valueType ∧
      prototypeIn[1]? = some clientType ∧ valueType.isInterface ∧ clientType.isInterface = false ∧
      ∃ m, checkPrototype "codegen.Bad"
        ⟨[contextType, valueType, valueType, optionType], none, prototypeOut⟩ = .panic m :=
  have hpre : ∀ j < 1, ∀ p' q', (⟨[contextType, valueType, valueType, optionType], none,
      prototypeOut⟩ : FuncType).ins[j]? = some p' → prototypeIn[j]? = some q' → accepts p' q' := by
    intro j hj p' q' hp hq
    obtain rfl : j = 0 := by omega
    cases hp; cases hq
    decide
  ⟨by decide, rfl, hpre, rfl, rfl, rfl, rfl,
    checkPrototype_panics "codegen.Bad" (by decide) rfl hpre rfl rfl rfl rfl⟩

/-- Start-up succeeds exactly when every callable of the registry is accepted. -/
theorem initCallables_ok_iff (reg : List (String × FuncType)) :
    initCallables reg = .ok ↔ ∀ e ∈ reg, checkPrototype e.1 e.2 = .ok := by
  induction reg with
  | nil => simp [initCallables]
  | cons e rest ih =>
    obtain ⟨name, c⟩ := e
    simp only [initCallables, List.forall_mem_cons, ← ih]
    rcases checkPrototype name c with _ | m | m <;> rcases initCallables rest with _ | m' | m' <;> simp

/-! ## The order of the registry -/

theorem intercalate_go_append (s a x : String) :
    ∀ l : List String, String.intercalate.go (a ++ x) s l = a ++ String.intercalate.go x s l
  | [] => rfl
  | b :: l => by
    simp only [String.intercalate.go, String.append_assoc]
    exact intercalate_go_append s a (x ++ (s ++ b)) l

theorem intercalate_cons_cons (s a b : String) (l : List String) :
    s.intercalate (a :: b :: l) = a ++ s ++ s.intercalate (b :: l) := by
  simp only [String.intercalate, String.intercalate.go]
  exact intercalate_go_append s (a ++ s) b l

/-- The mismatch messages of the registry's callables, in its order. -/
def mismatchMessages (reg : List (String × FuncType)) : List String :=
  reg.filterMap fun e => match checkPrototype e.1 e.2 with
    | .mismatch m => some m
    | _ => none

/-- Start-up panics exactly when some callable makes `CheckPrototype` panic. -/
theorem initCallables_panic_iff (reg : List (String × FuncType)) :
    (∃ m, initCallables reg = .panic m) ↔ ∃ e ∈ reg, ∃ m, checkPrototype e.1 e.2 = .panic m := by
  induction reg with
  | nil => simp [initCallables]
  | cons e rest ih =>
    obtain ⟨name, c⟩ := e
    have key : (∃ m, initCallables ((name, c) :: rest) = .panic m) ↔
        (∃ m, checkPrototype name c = .panic m) ∨ ∃ m, initCallables rest = .panic m := by
      dsimp only [initCallables]
      rcases checkPrototype name c with _ | m | m <;> rcases initCallables rest with _ | m' | m' <;>
        simp
    rw [key, ih]
    simp

theorem mismatchMessages_cons (name : String) (c : FuncType) (rest : List (String × FuncType)) :
    mismatchMessages ((name, c) :: rest) = match checkPrototype name c with
      | .mismatch m => m :: mismatchMessages rest
      | _ => mismatchMessages rest := by
  simp only [mismatchMessages, List.filterMap_cons]
  cases checkPrototype name c <;> rfl

/-- With no panic, start-up reports the mismatch messages joined by newlines, or succeeds. -/
theorem initCallables_of_no_panic {reg : List (String × FuncType)}
    (h : ∀ e ∈ reg, ∀ m, checkPrototype e.1 e.2 ≠ .panic m) :
    initCallables reg =
      if mismatchMessages reg = [] then .ok else .mismatch ("\n".intercalate (mismatchMessages reg)) := by
  induction reg with
  | nil => rfl
  | cons e rest ih =>
    obtain ⟨name, c⟩ := e
    rw [List.forall_mem_cons] at h
    dsimp only [initCallables]
    rw [ih h.2, mismatchMessages_cons]
    rcases hc : checkPrototype name c with _ | m | m
    · split_ifs <;> rfl
    · rcases mismatchMessages rest with _ | ⟨m', ms⟩
      · rfl
      · simp only [reduceCtorEq, if_false, intercalate_cons_cons]
    · exact absurd hc (h.1 m)

/-- Go ranges over the `Callables` map in no fixed order. Whatever the order, start-up
succeeds, panics, or reports mismatches alike, and the mismatch report is made of the same
messages, joined by newlines in the order the loop met them. -/
theorem initCallables_perm {reg reg' : List (String × FuncType)} (h : reg.Perm reg') :
    (initCallables reg = .ok ↔ initCallables reg' = .ok) ∧
      ((∃ m, initCallables reg = .panic m) ↔ ∃ m, initCallables reg' = .panic m) ∧
      ∀ m, initCallables reg = .mismatch m → ∃ ms ms', ms.Perm ms' ∧ m = "\n".intercalate ms ∧
        initCallables reg' = .mismatch ("\n".intercalate ms') := by
  refine ⟨?_, ?_, fun m hm => ?_⟩
  · simp only [initCallables_ok_iff]
    exact ⟨fun H e he => H e (h.mem_iff.2 he), fun H e he => H e (h.mem_iff.1 he)⟩
  · simp only [initCallables_panic_iff]
    exact ⟨fun ⟨e, he, hp⟩ => ⟨e, h.mem_iff.1 he, hp⟩, fun ⟨e, he, hp⟩ => ⟨e, h.mem_iff.2 he, hp⟩⟩
  · have hp : ∀ e ∈ reg, ∀ m', checkPrototype e.1 e.2 ≠ .panic m' := fun e he m' hm' => by
      obtain ⟨_, hm''⟩ := (initCallables_panic_iff reg).2 ⟨e, he, m', hm'⟩
      rw [hm] at hm''
      cases hm''
    have hperm : (mismatchMessages reg).Perm (mismatchMessages reg') := h.filterMap _
    rw [initCallables_of_no_panic hp] at hm
    split_ifs at hm with he
    cases hm
    refine ⟨_, _, hperm, rfl, ?_⟩
    rw [initCallables_of_no_panic fun e he' => hp e (h.mem_iff.2 he'),
      if_neg fun he' => he (he' ▸ hperm).eq_nil]

/-- A registry of a callable with no parameters and one of the prototype's own type. -/
def sampleRegistry : List (String × FuncType) :=
  [("codegen.Empty", ⟨[], none, []⟩), ("codegen.Plain", ⟨prototypeIn, none, prototypeOut⟩)]

/-- The sample registry in both orders: one mismatch, reported alike. -/
theorem initCallables_perm_sample :
    sampleRegistry.Perm sampleRegistry.reverse ∧
      initCallables sampleRegistry = .mismatch (mismatchMessage "codegen.Empty" ⟨[], none, []⟩) ∧
      ∃ ms ms', ms.Perm ms' ∧ mismatchMessage "codegen.Empty" ⟨[], none, []⟩ = "\n".intercalate ms ∧
        initCallables sampleRegistry.reverse = .mismatch ("\n".intercalate ms') :=
  have hp : sampleRegistry.Perm sampleRegistry.reverse := (List.reverse_perm _).symm
  have hm : initCallables sampleRegistry =
      .mismatch (mismatchMessage "codegen.Empty" ⟨[], none, []⟩) := rfl
  ⟨hp, hm, (initCallables_perm hp).2.2 _ hm⟩

end Hlb.Codegen
