/-
  Hlb.Codegen.Replay — a `Generate` that succeeded, run again.

  `lookupCall` keeps the module `EmitImport` read in the import object's `Data`, and from then
  on skips `EmitImport` for it. So a run of the walk that succeeded, started again from the
  state it left, finds every import it needs resolved: it reads no directory, parses and
  checks no module, and, everything else it reads being the same, computes the same
  results. A run that failed is another matter: by `lookupCall_stores_before_check`, the
  module of an import that `CheckReferences` rejected stays in place, and the run after it
  goes further.

  A result counts when it is a value, or a register that holds a value: an error stored in a
  register could come from a `lookupCall` whose second run succeeds. Such an error stays in
  the register to the end (`keepsError_emit`), so that a loop whose result counts had every
  turn's result count too.

  Proved, over every run from every state:
  - `replaysAll`: every function of the walk, after it succeeded from `s` and left `s'`,
    succeeds with the same result from every state `s'` grows into, and changes nothing
    there, whatever the resolver, the directories' files, the parser and the checker are
    on the second run.
  - `generate_replay`: so for `Generate`.
  - `generate_eq_parallel_map`: the request of `Generate` is `Parallel` over one request for
    each target name, what that target alone compiles to in the state `Generate` left; a
    target named twice gets the same request twice.
-/
import Hlb.Codegen.EvalProofs

namespace Hlb.Codegen.Eval

open Hlb.Go EvalM

variable {L V O Q R D : Type} (H : Host L V O Q R D)

/-- A register that holds a value, not an error. -/
def HoldsValue (r : Reg V) : Prop := ∃ v, r = .ok v

/-- `x'` replays `x`: once `x` has succeeded from `s`, with a result `P` accepts, and left
`s'`, `x'` succeeds with the same result from every state `s'` grows into, and changes
nothing there. -/
structure Replays {α : Type} (P : α → Prop) (x x' : EvalM (State L V D) α) : Prop where
  runs : Runs (Grows H) x
  replay : ∀ s a s' t, x s = some (.ok a, s') → P a → Grows H s' t → x' t = some (.ok a, t)

/-! ## Combinators -/

section Combinators

variable {H} {α β γ : Type} {P : α → Prop}

theorem replays_const {x x' : EvalM (State L V D) α} {c : Except Err α}
    (hx : ∀ s, x s = some (c, s)) (hx' : ∀ s, x' s = some (c, s)) : Replays H P x x' where
  runs s r s' h := by
    rw [hx] at h
    cases h
    exact .refl
  replay s a s' t h _ _ := by
    rw [hx] at h
    cases h
    exact hx' t

theorem replays_pure (a : α) : Replays H P (pure a) (pure a : EvalM (State L V D) α) :=
  replays_const (fun _ => rfl) fun _ => rfl

theorem replays_lift (x : Except Err α) : Replays H P (lift x) (lift x : EvalM (State L V D) α) :=
  replays_const (fun _ => rfl) fun _ => rfl

theorem replays_throw (e : Err) : Replays H P (throw e) (throw e : EvalM (State L V D) α) :=
  replays_const (fun _ => rfl) fun _ => rfl

theorem replays_outOfFuel (x' : EvalM (State L V D) α) : Replays H P outOfFuel x' where
  runs := runs_outOfFuel
  replay _ _ _ _ h := by cases h

theorem replays_bind {Pb : β → Prop} {x x' : EvalM (State L V D) α}
    {f f' : α → EvalM (State L V D) β} (hx : Replays H (fun _ => True) x x')
    (hf : ∀ a, Replays H Pb (f a) (f' a)) : Replays H Pb (x >>= f) (x' >>= f') where
  runs := runs_bind hx.runs fun a => (hf a).runs
  replay s b s' t h hb ht := by
    obtain ⟨a, s₁, h₁, h₂⟩ := bind_eq_ok h
    have ht₁ : Grows H s₁ t := (grows_of_runs ((hf a).runs _ _ _ h₂)).trans ht
    rw [bind_of_ok (hx.replay _ _ _ _ h₁ trivial ht₁)]
    exact (hf a).replay _ _ _ _ h₂ hb ht

/-- A register read at once: it held a value. -/
theorem replays_bind_force {Pb : β → Prop} {x x' : EvalM (State L V D) (Reg V)}
    {f f' : V → EvalM (State L V D) β} (hx : Replays H HoldsValue x x')
    (hf : ∀ v, Replays H Pb (f v) (f' v)) :
    Replays H Pb (x >>= fun r => force r >>= f) (x' >>= fun r => force r >>= f') where
  runs := runs_bind hx.runs fun r => runs_bind (runs_lift r) fun v => (hf v).runs
  replay s b s' t h hb ht := by
    obtain ⟨r, s₁, h₁, h₂⟩ := bind_eq_ok h
    obtain ⟨v, s₂, h₃, h₄⟩ := bind_eq_ok h₂
    simp only [force, lift_apply, Option.some.injEq, Prod.mk.injEq] at h₃
    obtain ⟨rfl, rfl⟩ := h₃
    have ht₁ : Grows H s₁ t := (grows_of_runs ((hf v).runs _ _ _ h₄)).trans ht
    rw [bind_of_ok (hx.replay _ _ _ _ h₁ ⟨v, rfl⟩ ht₁)]
    exact (hf v).replay _ _ _ _ h₄ hb ht

theorem replays_map {x x' : EvalM (State L V D) α} (hx : Replays H (fun _ => True) x x')
    (g : α → β) {Pb : β → Prop} : Replays H Pb (g <$> x) (g <$> x') := by
  simp only [← bind_pure_comp]
  exact replays_bind hx fun _ => replays_pure _

theorem replays_setAsync {ret : Reg V} {f f' : V → EvalM (State L V D) (Reg V)}
    (hf : ∀ v, Replays H HoldsValue (f v) (f' v)) :
    Replays H HoldsValue (setAsync ret f) (setAsync ret f') where
  runs := runs_setAsync fun v => (hf v).runs
  replay s a s' t h ha ht := by
    cases ret with
    | error e =>
      cases h
      obtain ⟨_, ⟨⟩⟩ := ha
    | ok v =>
      simp only [setAsync] at h ⊢
      rcases hv : f v s with _ | ⟨_ | r, s₁⟩ <;> rw [hv] at h <;> cases h
      · obtain ⟨_, ⟨⟩⟩ := ha
      · rw [(hf v).replay _ _ _ _ hv ha ht]

/-- A loop replays when each turn does, and a result `Pb` rejects is never followed by one it
accepts. -/
theorem replays_foldlM {f f' : β → γ → EvalM (State L V D) β} {Pb : β → Prop}
    (hf : ∀ b c, Replays H Pb (f b c) (f' b c))
    (hs : ∀ b c s r s', ¬Pb b → f b c s = some (.ok r, s') → ¬Pb r) :
    ∀ (l : List γ) b, Replays H Pb (l.foldlM f b) (l.foldlM f' b)
  | [], b => replays_pure b
  | c :: l, b => by
    have hl := replays_foldlM hf hs l
    refine ⟨runs_foldlM (fun b c => (hf b c).runs) _ _, fun s r s' t h hr ht => ?_⟩
    rw [List.foldlM_cons] at h ⊢
    obtain ⟨b', s₁, h₁, h₂⟩ := bind_eq_ok h
    have hb' : Pb b' := Classical.byContradiction fun hb' => foldlM_keeps (hs · ·) l b' s₁ r s' hb' h₂ hr
    have ht₁ : Grows H s₁ t := (grows_of_runs ((hl b').runs _ _ _ h₂)).trans ht
    rw [bind_of_ok ((hf b c).replay _ _ _ _ h₁ hb' ht₁)]
    exact (hl b').replay _ _ _ _ h₂ hr ht

/-- A loop all of whose results count. -/
theorem replays_foldlM_true {f f' : β → γ → EvalM (State L V D) β}
    (hf : ∀ b c, Replays H (fun _ => True) (f b c) (f' b c)) :
    ∀ (l : List γ) b, Replays H (fun _ => True) (l.foldlM f b) (l.foldlM f' b) :=
  replays_foldlM hf fun _ _ _ _ _ h _ => h

end Combinators

/-! ## The walk -/

section Walk

variable {H}

theorem replays_stringLitPiece {i i' : Expr L → EvalM (State L V D) String}
    (h : ∀ x, Replays H (fun _ => True) (i x) (i' x)) :
    ∀ f, Replays H (fun _ => True) (stringLitPiece i f) (stringLitPiece i' f)
  | .interpolated x => replays_map (h x) _
  | .text _ => replays_pure _
  | .escaped _ => replays_lift _

theorem replays_heredocLitPiece {i i' : Expr L → EvalM (State L V D) String}
    (h : ∀ x, Replays H (fun _ => True) (i x) (i' x)) :
    ∀ f, Replays H (fun _ => True) (heredocLitPiece i f) (heredocLitPiece i' f)
  | .interpolated x => replays_map (h x) _
  | .escaped _ => replays_lift _
  | .spaces _ | .text _ => replays_pure _

/-- A register that holds an error holds it after a statement. -/
theorem emitStmt_not_holdsValue {n : Nat} {rt : Kind} {sc : Scope L V} {st : Stmt L}
    {b : Option (Binding L)} {ret r : Reg V} {s s' : State L V D} (hret : ¬HoldsValue ret)
    (h : emitStmt H n rt sc st b ret s = some (.ok r, s')) : ¬HoldsValue r := by
  rcases ret with e | v
  · rcases (keepsError_emit H e n).2.2 rt sc st b s _ s' h with h' | ⟨_, ⟨⟩⟩
    cases h'
    rintro ⟨_, ⟨⟩⟩
  · exact absurd ⟨v, rfl⟩ hret

end Walk

/-- A `lookupCall` that succeeded found the import resolved or resolved it, so it succeeds
again, on any host, with no `EmitImport`. -/
theorem replays_lookupCall (H' : Host L V O Q R D) : ∀ n (sc : Scope L V) name,
    Replays H (fun _ => True) (lookupCall H n sc name : EvalM (State L V D) Unit)
      (lookupCall H' n sc name)
  | 0, _, _ => replays_outOfFuel _
  | n + 1, sc, name => by
    refine ⟨(runsAll H (n + 1)).lookupCall sc name, fun s a s' t h _ ht => ?_⟩
    have hst : Grows H s t :=
      (grows_of_runs ((runsAll H (n + 1)).lookupCall sc name _ _ _ h)).trans ht
    have hw : ∀ u, lookupCall H (n + 1) sc name u = _ := fun u => bind_of_ok (get_apply u) _
    have hw' : ∀ u, lookupCall H' (n + 1) sc name u = _ := fun u => bind_of_ok (get_apply u) _
    rw [hw] at h
    rcases hl : s.lookup sc name with _ | (i | _ | _ | _ | _ | _ | _) <;> rw [hl] at h
    · cases h
    · obtain ⟨k, hk⟩ : ∃ k, t.data sc.module name = some k := by
        rcases hd : s.data sc.module name with _ | k <;> rw [hd] at h
        · rcases hm : s.modules[sc.module]? with _ | mod <;> rw [hm] at h
          · cases h
          · obtain ⟨imod, s₁, -, h₁⟩ := bind_eq_ok h
            rw [bind_of_ok (modify_apply _ s₁), lift_apply] at h₁
            simp only [Option.some.injEq, Prod.mk.injEq] at h₁
            rw [← h₁.2] at ht
            exact ⟨_, ht.data _ _ _ (if_pos ⟨rfl, rfl⟩)⟩
        · exact ⟨k, hst.data _ _ _ hd⟩
      exact lookupCall_resolved H' (hst.lookup hl) hk
    all_goals cases h; rw [hw', hst.lookup hl]; rfl

/-! ## Another loader -/

/-- What only `EmitImport` and `lookupCall` read of the host: the resolver, `ModuleFilename`,
the directories' files, the parser and the checker. -/
structure Loader (L V D : Type) where
  resolve : ImportDecl L → V → Except Err D
  moduleFilename : String
  dirOpen : D → String → Except Err String
  isNotExist : Err → Bool
  parse : String → Except Err (Table L V)
  semanticPass : Table L V → Except Err Unit
  check : Table L V → Except Err Unit
  checkReferences : Table L V → String → Table L V → Except Err Unit

def Host.withLoader (l : Loader L V D) : Host L V O Q R D :=
  { H with
    resolve := l.resolve, moduleFilename := l.moduleFilename, dirOpen := l.dirOpen,
    isNotExist := l.isNotExist, parse := l.parse, semanticPass := l.semanticPass,
    check := l.check, checkReferences := l.checkReferences }

/-- The loader of `H` itself: `H.withLoader H.loader` is `H`. -/
def Host.loader : Loader L V D :=
  ⟨H.resolve, H.moduleFilename, H.dirOpen, H.isNotExist, H.parse, H.semanticPass, H.check,
    H.checkReferences⟩

section Loader

variable (l : Loader L V D)

theorem replays_emitField (val : V) (ret : Reg V) :
    Replays H HoldsValue (emitField H val ret : EvalM (State L V D) _)
      (emitField (H.withLoader l) val ret) := by
  unfold emitField
  rcases ret with _ | cur
  · exact replays_pure _
  · dsimp only [Host.withLoader]
    split
    · exact replays_pure _
    · exact replays_bind (replays_lift _) fun _ => replays_bind (replays_lift _) fun _ =>
        replays_pure _

/-- Every function of the walk on `H` is replayed by the same function on `H` with another
loader. -/
structure ReplaysAll (n : Nat) : Prop where
  expr : ∀ rt sc e b ret, Replays H HoldsValue (emitExpr H n rt sc e b ret : EvalM (State L V D) _)
    (emitExpr (H.withLoader l) n rt sc e b ret)
  basicLit : ∀ rt sc lit ret,
    Replays H HoldsValue (emitBasicLit H n rt sc lit ret : EvalM (State L V D) _)
      (emitBasicLit (H.withLoader l) n rt sc lit ret)
  interpolate : ∀ rt sc x,
    Replays H (fun _ => True) (interpolate H n rt sc x : EvalM (State L V D) _)
      (interpolate (H.withLoader l) n rt sc x)
  callExpr : ∀ rt sc name sig args ret,
    Replays H HoldsValue (emitCallExpr H n rt sc name sig args ret : EvalM (State L V D) _)
      (emitCallExpr (H.withLoader l) n rt sc name sig args ret)
  evaluate : ∀ sc b kinds exprs,
    Replays H (fun _ => True) (evaluate H n sc b kinds exprs : EvalM (State L V D) _)
      (evaluate (H.withLoader l) n sc b kinds exprs)
  identExpr : ∀ rt sc ie lookup args opts b ret,
    Replays H HoldsValue (emitIdentExpr H n rt sc ie lookup args opts b ret : EvalM (State L V D) _)
      (emitIdentExpr (H.withLoader l) n rt sc ie lookup args opts b ret)
  funcDecl : ∀ m fd args b ret,
    Replays H HoldsValue (emitFuncDecl H n m fd args b ret : EvalM (State L V D) _)
      (emitFuncDecl (H.withLoader l) n m fd args b ret)
  block : ∀ sc body b ret,
    Replays H HoldsValue (emitBlock H n sc body b ret : EvalM (State L V D) _)
      (emitBlock (H.withLoader l) n sc body b ret)
  stmt : ∀ rt sc st b ret,
    Replays H HoldsValue (emitStmt H n rt sc st b ret : EvalM (State L V D) _)
      (emitStmt (H.withLoader l) n rt sc st b ret)
  callStmt : ∀ rt sc name sig args w bc b ret,
    Replays H HoldsValue (emitCallStmt H n rt sc name sig args w bc b ret : EvalM (State L V D) _)
      (emitCallStmt (H.withLoader l) n rt sc name sig args w bc b ret)

theorem replaysAll : ∀ n, ReplaysAll H l n
  | 0 => ⟨fun _ _ _ _ _ => replays_outOfFuel _, fun _ _ _ _ => replays_outOfFuel _,
      fun _ _ _ => replays_outOfFuel _, fun _ _ _ _ _ _ => replays_outOfFuel _,
      fun _ _ _ _ => replays_outOfFuel _, fun _ _ _ _ _ _ _ _ => replays_outOfFuel _,
      fun _ _ _ _ _ => replays_outOfFuel _, fun _ _ _ _ => replays_outOfFuel _,
      fun _ _ _ _ _ => replays_outOfFuel _, fun _ _ _ _ _ _ _ _ _ => replays_outOfFuel _⟩
  | n + 1 => by
    have ih := replaysAll n
    constructor
    · intro rt sc e b ret
      cases e with
      | funcLit kind stmts => exact ih.block _ _ _ _
      | basicLit lit => exact ih.basicLit _ _ _ _
      | callExpr name sig args =>
        exact replays_setAsync fun v => replays_bind (replays_lookupCall H _ _ _ _) fun _ =>
          ih.callExpr _ _ _ _ _ _
    · intro rt sc lit ret
      cases lit with
      | str fragments =>
        exact replays_bind (replays_foldlM_true (fun _ f => replays_bind
          (replays_stringLitPiece (ih.interpolate _ _) f) fun _ => replays_pure _) _ _) fun _ =>
          replays_pure _
      | heredoc h =>
        exact replays_bind (replays_foldlM_true (fun _ f => replays_bind
          (replays_heredocLitPiece (ih.interpolate _ _) f) fun _ => replays_pure _) _ _) fun _ =>
          replays_pure _
      | _ => exact replays_pure _
    · intro rt sc x
      exact replays_bind_force (ih.expr _ _ _ _ _) fun _ => replays_lift _
    · intro rt sc name sig args ret
      exact replays_bind (replays_lift _) fun _ => replays_bind (ih.evaluate _ _ _ _) fun _ =>
        ih.identExpr _ _ _ _ _ _ _ _
    · intro sc b kinds exprs
      show Replays _ _ (if _ then _ else _) (if _ then _ else _)
      split
      · exact replays_throw _
      · exact replays_foldlM_true (fun _ _ => replays_bind_force (ih.expr _ _ _ _ _) fun _ =>
          replays_pure _) _ _
    · intro rt sc ie lookup args opts b ret
      refine ⟨(runsAll H (n + 1)).identExpr rt sc ie lookup args opts b ret,
        fun s a s' t h ha ht => ?_⟩
      have hst : Grows H s t := (grows_of_runs ((runsAll H (n + 1)).identExpr rt sc ie lookup
        args opts b ret _ _ _ h)).trans ht
      have hw : emitIdentExpr H (n + 1) rt sc ie lookup args opts b ret s = _ :=
        bind_of_ok (get_apply s) _
      have hw' : emitIdentExpr (H.withLoader l) (n + 1) rt sc ie lookup args opts b ret t = _ :=
        bind_of_ok (get_apply t) _
      rw [hw] at h
      rw [hw']
      rcases ho : s.lookup sc lookup with _ | o <;> rw [ho] at h
      · cases h
      rw [hst.lookup ho]
      -- the same object, and for an import the same module: the same computation
      rcases o with i | bd | fd | bindings | data | p | _ <;> dsimp only at h ⊢
      · rcases hd : s.data sc.module lookup with _ | k <;> rw [hd] at h
        · cases h
        rw [hst.data _ _ _ hd]
        rcases hr : ie.reference with _ | r <;> simp only [hr] at h ⊢
        · cases h
        · exact (ih.identExpr _ _ _ _ _ _ _ _).replay _ _ _ _ h ha ht
      · exact (replays_setAsync fun _ => replays_pure _).replay _ _ _ _ h ha ht
      · exact (ih.funcDecl _ _ _ _ _).replay _ _ _ _ h ha ht
      · rcases hf : bindings.find? fun x => decide (x.name = lookup) with _ | binding <;>
          simp only [hf] at h ⊢
        · cases h
        · exact (ih.funcDecl _ _ _ _ _).replay _ _ _ _ h ha ht
      · exact (replays_bind (replays_lift _) fun _ => replays_emitField H l _ _).replay _ _ _ _ h ha ht
      · exact (replays_bind (replays_lift _) fun _ => replays_emitField H l _ _).replay _ _ _ _ h ha ht
      · cases h
    · intro m fd args b ret
      show Replays _ _ (if _ then _ else _) (if _ then _ else _)
      split
      · exact replays_throw _
      · exact replays_bind (replays_lift _) fun _ => ih.block _ _ _ _
    · intro sc body b ret
      rcases body with _ | ⟨kind, stmts⟩
      · exact replays_pure _
      · exact replays_foldlM (fun _ _ => ih.stmt _ _ _ _ _)
          (fun _ _ _ _ _ hb h => emitStmt_not_holdsValue hb h) _ _
    · intro rt sc st b ret
      cases st with
      | call name sig args w bc =>
        exact replays_setAsync fun v => replays_bind (replays_lookupCall H _ _ _ _) fun _ =>
          ih.callStmt _ _ _ _ _ _ _ _ _
      | expr e => exact ih.expr _ _ _ _ _
    · intro rt sc name sig args w bc b ret
      refine replays_bind (ih.evaluate _ _ _ _) fun values => replays_bind ?_ fun opts =>
        replays_bind ?_ fun opts => replays_bind (replays_lift _) fun _ =>
          ih.identExpr _ _ _ _ _ _ _ _
      · rcases w with _ | w
        · exact replays_pure _
        · exact replays_bind (ih.evaluate _ _ _ _) fun _ => replays_bind (replays_lift _) fun _ =>
            replays_lift _
      · dsimp only [Host.withLoader]
        split
        · refine replays_bind (replays_foldlM_true (fun _ _ => ?_) _ _) fun _ => replays_pure _
          split
          · exact replays_throw _
          · exact replays_bind (replays_lift _) fun _ => replays_pure _
        · exact replays_pure _

theorem replays_generateTarget (fuel mod : Nat) (filename target : String) :
    Replays H (fun _ => True) (generateTarget H fuel mod filename target : EvalM (State L V D) Q)
      (generateTarget (H.withLoader l) fuel mod filename target) := by
  refine ⟨runs_generateTarget H fuel mod filename target, fun s q s' t h _ ht => ?_⟩
  have hst : Grows H s t := (grows_of_runs (runs_generateTarget H _ _ _ _ _ _ _ h)).trans ht
  have hw : generateTarget H fuel mod filename target s = _ := bind_of_ok (get_apply s) _
  have hw' : generateTarget (H.withLoader l) fuel mod filename target t = _ :=
    bind_of_ok (get_apply t) _
  rw [hw] at h
  rw [hw']
  have hsame : t.modules[mod]? = s.modules[mod]? := by
    rcases hm : s.modules[mod]? with _ | m
    · simp only [hm, Option.bind_none, Option.isNone_none, if_true] at h
      cases h
    · exact getElem?_of_isPrefix hst.modules hm
  rw [hsame]
  split at h
  · cases h
  · rw [if_neg ‹_›]
    exact (replays_bind (replays_lift _) fun _ => replays_bind_force
      ((replaysAll H l fuel).identExpr _ _ _ _ _ _ _ _) fun _ => replays_lift _ :
      Replays H (fun _ => True) _ _).replay _ _ _ _ h trivial ht

/-- A `Generate` that succeeded, run again from the state it left, or from any state the walk
grows that one into (another `Generate` on the same modules, say), returns the same request
and changes nothing: every import it needs is resolved, so that whatever the resolver, the
directories' files, the parser and the checker are then, no module is read, parsed or checked
again. -/
theorem generate_replay {fuel mod : Nat} {filename : String} {targets : List String}
    {s s' t : State L V D} {q : Q} (h : generate H fuel mod filename targets s = some (.ok q, s'))
    (ht : Grows H s' t) :
    generate (H.withLoader l) fuel mod filename targets t = some (.ok q, t) :=
  (replays_bind (replays_foldlM_true (fun _ _ => replays_bind
    (replays_generateTarget H l _ _ _ _) fun _ => replays_pure _) _ _) fun _ => replays_pure _ :
    Replays H (fun _ => True) _ _).replay _ _ _ _ h trivial ht

end Loader

/-! ## One request per target name -/

/-- The loop of `Generate`, from the requests `pre.map request` of targets `pre` that each
compile to their request in every state grown from `s`: its requests are those of `pre` and
then of `targets`, by a name-to-request map that every target compiles to after the loop. -/
theorem foldlM_generateLoop_map {fuel mod : Nat} {filename : String} :
    ∀ (targets pre : List String) (request : String → Q) (s s' : State L V D) (rs : List Q),
      (∀ t ∈ pre, ∀ u, Grows H s u →
        generateTarget H fuel mod filename t u = some (.ok (request t), u)) →
      targets.foldlM (generateLoop H fuel mod filename) (pre.map request) s = some (.ok rs, s') →
      ∃ request' : String → Q, rs = (pre ++ targets).map request' ∧
        ∀ t ∈ pre ++ targets, ∀ u, Grows H s' u →
          generateTarget H fuel mod filename t u = some (.ok (request' t), u)
  | [], pre, request, s, s', rs, hpre, h => by
    cases h
    exact ⟨request, by rw [List.append_nil], by rw [List.append_nil]; exact hpre⟩
  | t :: targets, pre, request, s, s', rs, hpre, h => by
    rw [List.foldlM_cons] at h
    obtain ⟨acc, s₁, hloop, hrest⟩ := bind_eq_ok h
    obtain ⟨r, s₂, ht, hacc⟩ := bind_eq_ok hloop
    cases hacc
    have hgrows : Grows H s s₁ := grows_of_runs (runs_generateTarget H _ _ _ _ _ _ _ ht)
    have hr : ∀ u, Grows H s₁ u → generateTarget H fuel mod filename t u = some (.ok r, u) :=
      fun u hu => (replays_generateTarget H H.loader fuel mod filename t).replay _ _ _ _ ht trivial hu
    let request₁ : String → Q := fun x => if x = t then r else request x
    -- A target met before compiles to its old request, so the map keeps it.
    have hsame : ∀ x ∈ pre, request₁ x = request x := by
      intro x hx
      by_cases hxt : x = t
      · have hx' := (hpre x hx s (Grows.refl s)).symm.trans (hxt ▸ ht)
        simp only [Option.some.injEq, Prod.mk.injEq, Except.ok.injEq] at hx'
        exact (if_pos hxt).trans hx'.1.symm
      · exact if_neg hxt
    have hacc : pre.map request ++ [r] = (pre ++ [t]).map request₁ := by
      rw [List.map_append, List.map_congr_left hsame]
      simp [request₁]
    rw [hacc] at hrest
    obtain ⟨request', hrs, hall⟩ := foldlM_generateLoop_map targets (pre ++ [t]) request₁ s₁ s' rs
      (fun x hx u hu => by
        rcases List.mem_append.1 hx with hx | hx
        · rw [hsame x hx]
          exact hpre x hx u (hgrows.trans hu)
        · rw [List.mem_singleton.1 hx, show request₁ t = r from if_pos rfl]
          exact hr u hu) hrest
    exact ⟨request', by rw [hrs, List.append_assoc, List.singleton_append],
      by rw [← List.singleton_append, ← List.append_assoc]; exact hall⟩

/-- The request of a `Generate` that succeeded is `Parallel` over one request for each target
name, in the order of the targets: the request that target alone compiles to in the state
`Generate` left, or in any state the walk grows that one into. So a target named twice gets
the same request twice, whatever the first compile of it loaded. -/
theorem generate_eq_parallel_map {fuel mod : Nat} {filename : String} {targets : List String}
    {s s' : State L V D} {q : Q} (h : generate H fuel mod filename targets s = some (.ok q, s')) :
    ∃ request : String → Q, q = H.parallel (targets.map request) ∧
      ∀ t ∈ targets, ∀ u, Grows H s' u →
        generateTarget H fuel mod filename t u = some (.ok (request t), u) := by
  obtain ⟨rs, s₁, hl, hq⟩ := bind_eq_ok h
  cases hq
  obtain ⟨request, hrs, hall⟩ := foldlM_generateLoop_map H targets [] (fun _ => H.parallel rs) s _
    rs (fun _ h => absurd h (List.not_mem_nil _)) hl
  exact ⟨request, by rw [hrs, List.nil_append], hall⟩

/-- The sample's `default`, named twice: `"hello"` for both. -/
theorem generate_sample_twice :
    generate sampleHost 12 0 "main.hlb" ["default", "default"] sampleState =
        some (.ok "hello,hello", sampleState.install 0 "lib" libModule) ∧
      ∃ request : String → String,
        "hello,hello" = sampleHost.parallel (["default", "default"].map request) ∧
        ∀ t ∈ ["default", "default"], ∀ u, Grows sampleHost (sampleState.install 0 "lib" libModule) u →
          generateTarget sampleHost 12 0 "main.hlb" t u = some (.ok (request t), u) :=
  have h : generate sampleHost 12 0 "main.hlb" ["default", "default"] sampleState =
      some (.ok "hello,hello", sampleState.install 0 "lib" libModule) := rfl
  ⟨h, generate_eq_parallel_map sampleHost h⟩

/-- A loader with no file to read and a parser that rejects everything. -/
def emptyLoader : Loader String String String :=
  ⟨sampleHost.resolve, sampleHost.moduleFilename, fun _ _ => .error (.plain "file does not exist"),
    sampleHost.isNotExist, fun _ => .error (.plain "syntax error"), sampleHost.semanticPass,
    sampleHost.check, sampleHost.checkReferences⟩

/-- The sample, run a second time with `emptyLoader`: `lib` is not read again, and `default`
gives `"hello"` as before. -/
theorem generate_sample_replay :
    generate sampleHost 12 0 "main.hlb" ["default"] sampleState =
        some (.ok "hello", sampleState.install 0 "lib" libModule) ∧
      generate (sampleHost.withLoader emptyLoader) 12 0 "main.hlb" ["default"]
          (sampleState.install 0 "lib" libModule) =
        some (.ok "hello", sampleState.install 0 "lib" libModule) :=
  have h : generate sampleHost 12 0 "main.hlb" ["default"] sampleState =
      some (.ok "hello", sampleState.install 0 "lib" libModule) := rfl
  ⟨h, generate_replay sampleHost emptyLoader h (Grows.refl _)⟩

end Hlb.Codegen.Eval
