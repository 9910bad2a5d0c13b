/-
  Hlb.Codegen.Register — registers and the computations of the code generator.

  A computation runs on a state and ends with Go's error return and the state after it;
  what it changed before an error stays changed. The walk of a program is bounded by a
  fuel argument, and a computation that runs out of fuel gives `none`.

  Modelled from the spec: `Register` is not in the sources. A register holds a value or the
  first error stored in it; `Set` keeps a stored error, and `SetAsync(f)` runs `f` on the
  value held, unless an error is, and holds what `f` returns. The spec allows running the
  closures of `SetAsync` at once, in the order they are set; that is the model.

  Proved:
  - `EvalM` is a lawful monad, so the library's lemmas on `foldlM` apply.
  - `runs_bind`, `runs_foldlM`, `runs_setAsync`: what a computation does to the state is
    a run of a given step relation, kept the same way.
-/
import Mathlib.Logic.Relation
import Hlb.Codegen.Ast

namespace Hlb.Codegen

/-- A computation on the state `σ`: `none` when the fuel runs out, else Go's error return
and the state after it. -/
def EvalM (σ α : Type) : Type := σ → Option (Except Err α × σ)

namespace EvalM

variable {σ α β : Type}

protected def pure (a : α) : EvalM σ α := fun s => some (.ok a, s)

protected def bind (x : EvalM σ α) (f : α → EvalM σ β) : EvalM σ β := fun s =>
  match x s with
  | none => none
  | some (.error e, s') => some (.error e, s')
  | some (.ok a, s') => f a s'

instance : Monad (EvalM σ) where
  pure := EvalM.pure
  bind := EvalM.bind

def outOfFuel : EvalM σ α := fun _ => none

def throw (e : Err) : EvalM σ α := fun s => some (.error e, s)

/-- A call that changes no state. -/
def lift (x : Except Err α) : EvalM σ α := fun s => some (x, s)

def get : EvalM σ σ := fun s => some (.ok s, s)

/-- An assignment to the state. -/
def modify (f : σ → σ) : EvalM σ Unit := fun s => some (.ok (), f s)

@[simp] theorem pure_apply (a : α) (s : σ) : (pure a : EvalM σ α) s = some (.ok a, s) := rfl

theorem bind_apply (x : EvalM σ α) (f : α → EvalM σ β) (s : σ) :
    (x >>= f) s = match x s with
      | none => none
      | some (.error e, s') => some (.error e, s')
      | some (.ok a, s') => f a s' := rfl

theorem bind_of_ok {x : EvalM σ α} {s s' : σ} {a : α} (h : x s = some (.ok a, s'))
    (f : α → EvalM σ β) : (x >>= f) s = f a s' := by
  rw [bind_apply, h]

theorem bind_of_error {x : EvalM σ α} {s s' : σ} {e : Err} (h : x s = some (.error e, s'))
    (f : α → EvalM σ β) : (x >>= f) s = some (.error e, s') := by
  rw [bind_apply, h]

theorem bind_of_none {x : EvalM σ α} {s : σ} (h : x s = none) (f : α → EvalM σ β) :
    (x >>= f) s = none := by
  rw [bind_apply, h]

/-- What a bind that ends can have come from: an error of the first computation, or its
value and the second computation from the state after it. -/
theorem bind_eq_some {x : EvalM σ α} {f : α → EvalM σ β} {s s' : σ} {r : Except Err β}
    (h : (x >>= f) s = some (r, s')) :
    (∃ e, x s = some (.error e, s') ∧ r = .error e) ∨
      ∃ a s₁, x s = some (.ok a, s₁) ∧ f a s₁ = some (r, s') := by
  rw [bind_apply] at h
  rcases hx : x s with _ | ⟨_ | a, s₁⟩ <;> rw [hx] at h
  · cases h
  · cases h; exact .inl ⟨_, rfl, rfl⟩
  · exact .inr ⟨a, s₁, rfl, h⟩

/-- A bind that succeeds: both computations succeeded. -/
theorem bind_eq_ok {x : EvalM σ α} {f : α → EvalM σ β} {s s' : σ} {b : β}
    (h : (x >>= f) s = some (.ok b, s')) :
    ∃ a s₁, x s = some (.ok a, s₁) ∧ f a s₁ = some (.ok b, s') := by
  rcases bind_eq_some h with ⟨_, -, he⟩ | h'
  · cases he
  · exact h'

@[simp] theorem throw_apply (e : Err) (s : σ) : (throw e : EvalM σ α) s = some (.error e, s) := rfl

@[simp] theorem lift_apply (x : Except Err α) (s : σ) : (lift x : EvalM σ α) s = some (x, s) :=
  rfl

@[simp] theorem get_apply (s : σ) : (get : EvalM σ σ) s = some (.ok s, s) := rfl

@[simp] theorem modify_apply (f : σ → σ) (s : σ) : (modify f : EvalM σ Unit) s = some (.ok (), f s) :=
  rfl

@[simp] theorem outOfFuel_apply (s : σ) : (outOfFuel : EvalM σ α) s = none := rfl

instance : LawfulMonad (EvalM σ) := LawfulMonad.mk' _
  (fun x => funext fun s => by
    show EvalM.bind x _ s = x s
    unfold EvalM.bind
    rcases x s with _ | ⟨_ | _, _⟩ <;> rfl)
  (fun _ _ => rfl)
  (fun x f g => funext fun s => by
    show EvalM.bind (EvalM.bind x f) g s = EvalM.bind x (fun a => EvalM.bind (f a) g) s
    unfold EvalM.bind
    rcases x s with _ | ⟨_ | _, _⟩ <;> rfl)

/-! ## Runs of the state -/

/-- Every state change of `x` is a run of `step`. -/
def Runs (step : σ → σ → Prop) (x : EvalM σ α) : Prop :=
  ∀ s r s', x s = some (r, s') → Relation.ReflTransGen step s s'

variable {step : σ → σ → Prop}

theorem runs_pure (a : α) : Runs step (pure a : EvalM σ α) := by
  rintro s r s' ⟨⟩; exact .refl

theorem runs_throw (e : Err) : Runs step (throw e : EvalM σ α) := by
  rintro s r s' ⟨⟩; exact .refl

theorem runs_lift (x : Except Err α) : Runs step (lift x : EvalM σ α) := by
  rintro s r s' ⟨⟩; exact .refl

theorem runs_outOfFuel : Runs step (outOfFuel : EvalM σ α) := by
  rintro s r s' ⟨⟩

theorem runs_get : Runs step (get : EvalM σ σ) := by
  rintro s r s' ⟨⟩; exact .refl

theorem runs_bind {x : EvalM σ α} {f : α → EvalM σ β} (hx : Runs step x)
    (hf : ∀ a, Runs step (f a)) : Runs step (x >>= f) := by
  intro s r s' h
  rcases bind_eq_some h with ⟨e, he, -⟩ | ⟨a, s₁, ha, hr⟩
  · exact hx _ _ _ he
  · exact (hx _ _ _ ha).trans (hf a _ _ _ hr)

theorem runs_map {x : EvalM σ α} (hx : Runs step x) (f : α → β) : Runs step (f <$> x) := by
  simp only [← bind_pure_comp]
  exact runs_bind hx fun _ => runs_pure _

theorem runs_foldlM {γ : Type} {f : β → γ → EvalM σ β} (hf : ∀ b c, Runs step (f b c)) :
    ∀ (l : List γ) (b : β), Runs step (l.foldlM f b)
  | [], _ => runs_pure _
  | c :: l, b => by
    simp only [List.foldlM_cons]
    exact runs_bind (hf b c) fun b' => runs_foldlM hf l b'

/-! ## Loops -/

/-- A loop that appends one value a step gives one value for each element. -/
theorem length_foldlM_snoc {γ δ : Type} {f : List δ → γ → EvalM σ (List δ)}
    (hf : ∀ acc c s r s', f acc c s = some (.ok r, s') → r.length = acc.length + 1) :
    ∀ (l : List γ) (acc : List δ) (s : σ) (r : List δ) (s' : σ),
      l.foldlM f acc s = some (.ok r, s') → r.length = acc.length + l.length
  | [], acc, s, r, s', h => by cases h; rfl
  | c :: l, acc, s, r, s', h => by
    rw [List.foldlM_cons] at h
    obtain ⟨a, s₁, ha, hr⟩ := bind_eq_ok h
    rw [length_foldlM_snoc hf l a s₁ r s' hr, hf acc c s a s₁ ha, List.length_cons]
    omega

/-- A loop that appends, for each element, the value of a call that changes no state: the
values of the calls, in order, or the first error. -/
theorem foldlM_snoc_lift {γ δ : Type} {g : γ → EvalM σ δ} {p : γ → Except Err δ} :
    ∀ {l : List γ}, (∀ c ∈ l, g c = lift (p c)) → ∀ (acc : List δ) (s : σ),
      (l.foldlM (fun acc c => do let d ← g c; pure (acc ++ [d])) acc : EvalM σ (List δ)) s =
        some ((acc ++ ·) <$> l.mapM p, s)
  | [], _, acc, s => by
    show (some (Except.ok acc, s) : Option (Except Err (List δ) × σ)) = some (.ok (acc ++ []), s)
    rw [List.append_nil]
  | c :: l, hg, acc, s => by
    rw [List.forall_mem_cons] at hg
    rw [List.foldlM_cons, hg.1, List.mapM_cons]
    rcases hc : p c with e | d
    · rfl
    · show (l.foldlM _ (acc ++ [d]) : EvalM σ (List δ)) s = _
      rw [foldlM_snoc_lift hg.2]
      rcases l.mapM p with e | ds
      · rfl
      · show (some (Except.ok (acc ++ [d] ++ ds), s) : Option (Except Err (List δ) × σ)) =
          some (.ok (acc ++ d :: ds), s)
        rw [List.append_assoc, List.singleton_append]

/-- A loop that fails: the elements before the one that failed all succeeded, in order. -/
theorem foldlM_eq_error {γ : Type} {f : β → γ → EvalM σ β} :
    ∀ {l : List γ} {b : β} {s s' : σ} {e : Err}, l.foldlM f b s = some (.error e, s') →
      ∃ pre c post b₁ s₁, l = pre ++ c :: post ∧ pre.foldlM f b s = some (.ok b₁, s₁) ∧
        f b₁ c s₁ = some (.error e, s')
  | [], _, _, _, _, h => by cases h
  | c :: l, b, s, s', e, h => by
    rw [List.foldlM_cons] at h
    rcases bind_eq_some h with ⟨e', he, he'⟩ | ⟨b₁, s₁, hb, hr⟩
    · cases he'
      exact ⟨[], c, l, b, s, rfl, rfl, he⟩
    · obtain ⟨pre, c', post, b₂, s₂, rfl, hpre, hc⟩ := foldlM_eq_error hr
      refine ⟨c :: pre, c', post, b₂, s₂, rfl, ?_, hc⟩
      rw [List.foldlM_cons, bind_of_ok hb]
      exact hpre

/-- A loop whose steps keep `I` of the state and, when they succeed, show `P` of their
element, shows `P` of every element when it succeeds. -/
theorem foldlM_forall {γ : Type} {I : σ → Prop} {P : γ → Prop} {f : β → γ → EvalM σ β}
    (hf : ∀ b c s r s', I s → f b c s = some (.ok r, s') → I s' ∧ P c) :
    ∀ (l : List γ) (b : β) (s : σ) (r : β) (s' : σ), I s →
      l.foldlM f b s = some (.ok r, s') → ∀ c ∈ l, P c
  | [], _, _, _, _, _, _ => fun _ h => by cases h
  | c :: l, b, s, r, s', hs, h => by
    rw [List.foldlM_cons] at h
    obtain ⟨a, s₁, ha, hr⟩ := bind_eq_ok h
    obtain ⟨hs₁, hc⟩ := hf b c s a s₁ hs ha
    exact List.forall_mem_cons.mpr ⟨hc, foldlM_forall hf l a s₁ r s' hs₁ hr⟩

/-- A loop whose steps, on the values `j a`, succeed with `j (g a c)` and change no state is
the fold of `g` seen through `j`. -/
theorem foldlM_of_map {γ β' : Type} {f : β → γ → EvalM σ β} {g : β' → γ → β'} {j : β' → β}
    {s : σ} : ∀ {l : List γ}, (∀ a, ∀ c ∈ l, f (j a) c s = some (.ok (j (g a c)), s)) → ∀ a,
      l.foldlM f (j a) s = some (.ok (j (l.foldl g a)), s)
  | [], _, _ => rfl
  | c :: l, hf, a => by
    rw [List.foldlM_cons, bind_of_ok (hf a c (List.mem_cons_self c l)), List.foldl_cons]
    exact foldlM_of_map (fun a' c' hc' => hf a' c' (List.mem_cons_of_mem c hc')) _

/-- A loop whose steps succeed with `g` and change no state is the fold of `g`. -/
theorem foldlM_of_pure {γ : Type} {f : β → γ → EvalM σ β} {g : β → γ → β} {s : σ} {l : List γ}
    (hf : ∀ b, ∀ c ∈ l, f b c s = some (.ok (g b c), s)) (b : β) :
    l.foldlM f b s = some (.ok (l.foldl g b), s) :=
  foldlM_of_map (j := id) hf b

/-- A loop whose steps keep `Q` of the value they carry keeps it. -/
theorem foldlM_keeps {γ : Type} {Q : β → Prop} {f : β → γ → EvalM σ β}
    (hf : ∀ b c s r s', Q b → f b c s = some (.ok r, s') → Q r) :
    ∀ (l : List γ) (b : β) (s : σ) (r : β) (s' : σ), Q b → l.foldlM f b s = some (.ok r, s') → Q r
  | [], _, _, _, _, hb, h => by cases h; exact hb
  | c :: l, b, s, r, s', hb, h => by
    rw [List.foldlM_cons] at h
    obtain ⟨a, s₁, ha, hr⟩ := bind_eq_ok h
    exact foldlM_keeps hf l a s₁ r s' (hf b c s a s₁ hb ha) hr

end EvalM

/-! ## Registers -/

/-- A register, as `Value()` reads it: the value it holds, or the first error stored. -/
abbrev Reg (V : Type) := Except Err V

/-- `NewRegister(ctx)`: the value a register starts with, for the return type of the
context. -/
def newRegister {V : Type} (zero : Kind → V) (returnType : Kind) : Reg V := .ok (zero returnType)

/-- `ret.Set(v)`: a stored error is kept. -/
def Reg.set {V : Type} (v : V) (ret : Reg V) : Reg V := ret.bind fun _ => .ok v

/-- `ret.SetAsync(f)`: `f` runs on the value held, unless an error is; the register then
holds `f`'s error, or the value of `f`'s own register. -/
def setAsync {σ V : Type} (ret : Reg V) (f : V → EvalM σ (Reg V)) : EvalM σ (Reg V) := fun s =>
  match ret with
  | .error e => some (.ok (.error e), s)
  | .ok v =>
    match f v s with
    | none => none
    | some (.error e, s') => some (.ok (.error e), s')
    | some (.ok r, s') => some (.ok r, s')

/-- `ret.Value()` where an error is returned. -/
def force {σ V : Type} (ret : Reg V) : EvalM σ V := EvalM.lift ret

section Registers

variable {σ V : Type}

@[simp] theorem set_ok (v w : V) : Reg.set v (.ok w) = .ok v := rfl

@[simp] theorem set_error (v : V) (e : Err) : Reg.set v (.error e) = .error e := rfl

@[simp] theorem setAsync_error (e : Err) (f : V → EvalM σ (Reg V)) (s : σ) :
    setAsync (.error e) f s = some (.ok (.error e), s) := rfl

theorem runs_setAsync {step : σ → σ → Prop} {ret : Reg V} {f : V → EvalM σ (Reg V)}
    (hf : ∀ v, EvalM.Runs step (f v)) : EvalM.Runs step (setAsync ret f) := by
  intro s r s' h
  cases ret with
  | error e => cases h; exact .refl
  | ok v =>
    simp only [setAsync] at h
    rcases hv : f v s with _ | ⟨_ | _, s₁⟩ <;> rw [hv] at h <;> cases h
    all_goals exact hf v _ _ _ hv

end Registers

end Hlb.Codegen
