/-
  Hlb.Codegen.EvalProofs — what holds of every run of the code generator's walk (see
  `Hlb.Codegen.Eval`).

  Proved, over every run from every state:
  - `runsAll`: the walk changes the state only by installs of `lookupCall`, each of a
    module that `EmitImport` read for the import object it is stored in, which had no `Data`
    when the call began, so that the state only grows (`Grows`).
  - `generate_inv`, `generate_data_stable`, `generate_loaded`: so a run of `Generate`
    keeps the imports a forest, keeps an import's `Data` once set, and keeps every import's
    `Data` a module that import reads: the value of its expression names the file, in its
    module's directory or, for a filesystem, in the one the resolver gives, and the module
    is parsed and checked.
  - `emitIdentExpr_view`: `EmitIdentExpr` goes through import objects as the abstract walk
    of `Hlb.Codegen.Imports` does, so that what is proved of that walk holds of the code.
  - `lookupCall_stores_before_check`: `lookupCall` stores the imported module before
    `CheckReferences` runs, so that an import whose check failed stays resolved.
  - `emitBlock_of_error`: once a block's register holds an error, the block runs as if it
    had no call statement and no call expression; the interpolations of a later string
    literal still run.
  - `emitBasicLit_unquote`: the walk sets a string literal of text and escapes to the bytes
    of `Hlb.Codegen.StringLit`, which are `Unquote`'s when the literal has no raw newline.
    (`emitBasicLit_str` and `emitBasicLit_heredoc` tie the literals of the walk to
    `Hlb.Codegen.StringLit` and `Hlb.Codegen.Heredoc`.)
  - `length_evaluate`: `Evaluate` gives one value for each expression.
  - `generate_ok`: `Generate` succeeds exactly when the targets, compiled one after another,
    each give a request, and then returns `Parallel` over those, in order.
  - `generate_error`: `Generate` that fails returns the error of one target, after every
    target before it gave its request.
-/
import Hlb.Codegen.Eval

namespace Hlb.Codegen.Eval

open Hlb.Go EvalM

variable {L V O Q R D : Type} (H : Host L V O Q R D)

/-! ## What `EmitImport` reads -/

/-- The module `imod` is what the import `id` of module `m`, in the directory `dir`, reads:
its expression, evaluated by the walk in the module's scope, gives a value `val`, and `imod`
is the file `importPath` names for `val` (in the directory the resolver gives for a
filesystem, else in `dir`), parsed and checked. -/
def ImportedFrom (m : Nat) (dir : D) (id : ImportDecl L) (imod : Module L V D) : Prop :=
  ∃ n s s' val p, emitExpr H n Kind.none (moduleScope m) id.expr none
      (newRegister H.zero Kind.none) s = some (.ok (.ok val), s') ∧
    importPath H dir id val = .ok p ∧ loadModule H id p.1 p.2 = .ok imod

/-- Every import object's `Data` is a module that import reads. -/
def Loaded (s : State L V D) : Prop :=
  ∀ m n k, s.data m n = some k →
    ∃ mod id imod, s.modules[m]? = some mod ∧ mod.objects n = some (.importDecl id) ∧
      s.modules[k]? = some imod ∧ ImportedFrom H m mod.directory id imod

/-- A module `EmitImport` returns is one the import reads. -/
theorem emitImport_imported {n m : Nat} {dir : D} {id : ImportDecl L} {s s' : State L V D}
    {imod : Module L V D} (h : emitImport H n m dir id s = some (.ok imod, s')) :
    ImportedFrom H m dir id imod := by
  cases n with
  | zero => cases h
  | succ n =>
    obtain ⟨ret, s₁, hret, h₁⟩ := bind_eq_ok h
    obtain ⟨val, s₂, hval, h₂⟩ := bind_eq_ok h₁
    obtain ⟨p, s₃, hp, h₃⟩ := bind_eq_ok h₂
    simp only [force, lift_apply, Option.some.injEq, Prod.mk.injEq] at hval hp h₃
    obtain ⟨rfl, -⟩ := hval
    exact ⟨n, s, s₁, val, p, hret, hp.1, h₃.1⟩

/-! ## What a run does to the state -/

/-- What a run of the walk does to the state: it only adds modules, keeps an import's `Data`
once set, and keeps the imports a forest and every import's `Data` `Loaded`. -/
structure Grows (s s' : State L V D) : Prop where
  modules : s.modules <+: s'.modules
  data : ∀ m n k, s.data m n = some k → s'.data m n = some k
  inv : Codegen.Inv s.view → Codegen.Inv s'.view
  loaded : Loaded H s → Loaded H s'

theorem getElem?_of_isPrefix {α : Type} {l l' : List α} (h : l <+: l') {i : Nat} {a : α}
    (hi : l[i]? = some a) : l'[i]? = some a := by
  obtain ⟨u, rfl⟩ := h
  rw [List.getElem?_append_left (List.getElem?_eq_some_iff.1 hi).1, hi]

section Grows

variable {H}

theorem Grows.refl (s : State L V D) : Grows H s s := ⟨List.prefix_refl _, fun _ _ _ h => h, id, id⟩

theorem Grows.trans {s₁ s₂ s₃ : State L V D} (h₁ : Grows H s₁ s₂) (h₂ : Grows H s₂ s₃) :
    Grows H s₁ s₃ :=
  ⟨h₁.modules.trans h₂.modules, fun m n k h => h₂.data m n k (h₁.data m n k h), h₂.inv ∘ h₁.inv,
    h₂.loaded ∘ h₁.loaded⟩

theorem grows_of_runs {s s' : State L V D} (h : Relation.ReflTransGen (Grows H) s s') :
    Grows H s s' := by
  induction h with
  | refl => exact Grows.refl s
  | tail _ hst ih => exact ih.trans hst

theorem Grows.lookup {s t : State L V D} (h : Grows H s t) {sc : Scope L V} {name : String}
    {o : Obj L V} (hl : s.lookup sc name = some o) : t.lookup sc name = some o := by
  unfold State.lookup at hl ⊢
  rcases hs : sc.locals name with _ | o' <;> simp only [hs] at hl ⊢
  · obtain ⟨mod, hm, ho⟩ := Option.bind_eq_some.1 hl
    rw [getElem?_of_isPrefix h.modules hm]
    exact ho
  · exact hl

theorem loaded_install {s : State L V D} (hs : Loaded H s) {m : Nat} {name : String}
    {mod imod : Module L V D} {id : ImportDecl L} (hm : s.modules[m]? = some mod)
    (hobj : mod.objects name = some (.importDecl id))
    (himod : ImportedFrom H m mod.directory id imod) : Loaded H (s.install m name imod) := by
  intro m' n' k hk
  have hpre : s.modules <+: (s.install m name imod).modules := List.prefix_append _ _
  rw [State.install_data] at hk
  split_ifs at hk with h
  · obtain ⟨rfl, rfl⟩ := h
    cases hk
    exact ⟨mod, id, imod, getElem?_of_isPrefix hpre hm, hobj, by simp, himod⟩
  · obtain ⟨mod', id', imod', h₁, h₂, h₃, h₄⟩ := hs m' n' k hk
    exact ⟨mod', id', imod', getElem?_of_isPrefix hpre h₁, h₂, getElem?_of_isPrefix hpre h₃, h₄⟩

/-- The install at the end of `lookupCall`: into the import object `name` of module `m`,
which had no `Data` when the call began, at `s`, of a module that import reads, after a run
from `s` to `s₁`. -/
theorem grows_install {s s₁ : State L V D} {m : Nat} {name : String} {mod imod : Module L V D}
    {id : ImportDecl L} (hm : s.modules[m]? = some mod)
    (hobj : mod.objects name = some (.importDecl id)) (hd : s.data m name = none)
    (h₁ : Grows H s s₁) (himod : ImportedFrom H m mod.directory id imod) :
    Grows H s (s₁.install m name imod) := by
  have hm₁ := getElem?_of_isPrefix h₁.modules hm
  refine ⟨h₁.modules.trans (List.prefix_append _ _), fun m' n' k hk => ?_, fun hi => ?_,
    fun hl => loaded_install (h₁.loaded hl) hm₁ hobj himod⟩
  · rw [State.install_data, if_neg]
    · exact h₁.data m' n' k hk
    · rintro ⟨rfl, rfl⟩
      rw [hd] at hk
      cases hk
  · rw [install_view]
    exact inv_install (h₁.inv hi) (by simpa using (List.getElem?_eq_some_iff.1 hm₁).1) name _

end Grows

theorem runs_stringLitPiece {i : Expr L → EvalM (State L V D) String} (h : ∀ x, Runs (Grows H) (i x)) :
    ∀ f, Runs (Grows H) (stringLitPiece i f)
  | .interpolated x => runs_map (h x) _
  | .text _ => runs_pure _
  | .escaped _ => runs_lift _

theorem runs_heredocLitPiece {i : Expr L → EvalM (State L V D) String} (h : ∀ x, Runs (Grows H) (i x)) :
    ∀ f, Runs (Grows H) (heredocLitPiece i f)
  | .interpolated x => runs_map (h x) _
  | .escaped _ => runs_lift _
  | .spaces _ | .text _ => runs_pure _

theorem runs_emitField (val : V) (ret : Reg V) : Runs (Grows H) (emitField H val ret) := by
  unfold emitField
  rcases ret with _ | cur
  · exact runs_pure _
  · dsimp only
    split
    · exact runs_pure _
    · exact runs_bind (runs_lift _) fun _ => runs_bind (runs_lift _) fun _ => runs_pure _

/-- Every function of the walk only grows the state. -/
structure RunsAll (n : Nat) : Prop where
  expr : ∀ rt sc e b ret, Runs (Grows H) (emitExpr H n rt sc e b ret)
  basicLit : ∀ rt sc lit ret, Runs (Grows H) (emitBasicLit H n rt sc lit ret)
  interpolate : ∀ rt sc x, Runs (Grows H) (interpolate H n rt sc x)
  callExpr : ∀ rt sc name sig args ret, Runs (Grows H) (emitCallExpr H n rt sc name sig args ret)
  evaluate : ∀ sc b kinds exprs, Runs (Grows H) (evaluate H n sc b kinds exprs)
  identExpr : ∀ rt sc ie lookup args opts b ret,
    Runs (Grows H) (emitIdentExpr H n rt sc ie lookup args opts b ret)
  funcDecl : ∀ m fd args b ret, Runs (Grows H) (emitFuncDecl H n m fd args b ret)
  block : ∀ sc body b ret, Runs (Grows H) (emitBlock H n sc body b ret)
  stmt : ∀ rt sc st b ret, Runs (Grows H) (emitStmt H n rt sc st b ret)
  callStmt : ∀ rt sc name sig args w bc b ret,
    Runs (Grows H) (emitCallStmt H n rt sc name sig args w bc b ret)
  lookupCall : ∀ sc name, Runs (Grows H) (lookupCall H n sc name)
  emitImport : ∀ m dir id, Runs (Grows H) (emitImport H n m dir id)

theorem runsAll : ∀ n, RunsAll H n
  | 0 => ⟨fun _ _ _ _ _ => runs_outOfFuel, fun _ _ _ _ => runs_outOfFuel, fun _ _ _ => runs_outOfFuel,
      fun _ _ _ _ _ _ => runs_outOfFuel,
      fun _ _ _ _ => runs_outOfFuel, fun _ _ _ _ _ _ _ _ => runs_outOfFuel,
      fun _ _ _ _ _ => runs_outOfFuel, fun _ _ _ _ => runs_outOfFuel,
      fun _ _ _ _ _ => runs_outOfFuel, fun _ _ _ _ _ _ _ _ _ => runs_outOfFuel,
      fun _ _ => runs_outOfFuel, fun _ _ _ => runs_outOfFuel⟩
  | n + 1 => by
    have ih := runsAll n
    constructor
    · intro rt sc e b ret
      cases e with
      | funcLit kind stmts => exact ih.block _ _ _ _
      | basicLit lit => exact ih.basicLit _ _ _ _
      | callExpr name sig args =>
        exact runs_setAsync fun v => runs_bind (ih.lookupCall _ _) fun _ => ih.callExpr _ _ _ _ _ _
    · intro rt sc lit ret
      cases lit with
      | str fragments =>
        exact runs_bind (runs_foldlM (fun _ f => runs_bind (runs_stringLitPiece H (ih.interpolate _ _) f)
          fun _ => runs_pure _) _ _) fun _ => runs_pure _
      | heredoc h =>
        exact runs_bind (runs_foldlM (fun _ f => runs_bind (runs_heredocLitPiece H (ih.interpolate _ _) f)
          fun _ => runs_pure _) _ _) fun _ => runs_pure _
      | _ => exact runs_pure _
    · intro rt sc x
      exact runs_bind (ih.expr _ _ _ _ _) fun _ => runs_bind (runs_lift _) fun _ => runs_lift _
    · intro rt sc name sig args ret
      exact runs_bind (runs_lift _) fun _ => runs_bind (ih.evaluate _ _ _ _) fun _ =>
        ih.identExpr _ _ _ _ _ _ _ _
    · intro sc b kinds exprs
      show Runs _ (if _ then _ else _)
      split
      · exact runs_throw _
      · exact runs_foldlM (fun _ _ => runs_bind (ih.expr _ _ _ _ _) fun _ =>
          runs_bind (runs_lift _) fun _ => runs_pure _) _ _
    · intro rt sc ie lookup args opts b ret
      refine runs_bind runs_get fun s => ?_
      rcases s.lookup sc lookup with _ | (id | bd | fd | bindings | data | p | _) <;> dsimp only
      · exact runs_throw _
      · rcases s.data sc.module lookup with _ | k <;> dsimp only
        · exact runs_throw _
        · rcases ie.reference with _ | r
          · exact runs_throw _
          · exact ih.identExpr _ _ _ _ _ _ _ _
      · exact runs_setAsync fun _ => runs_pure _
      · exact ih.funcDecl _ _ _ _ _
      · cases bindings.find? fun x => decide (x.name = lookup)
        · exact runs_throw _
        · exact ih.funcDecl _ _ _ _ _
      · exact runs_bind (runs_lift _) fun _ => runs_emitField H _ _
      · exact runs_bind (runs_lift _) fun _ => runs_emitField H _ _
      · exact runs_throw _
    · intro m fd args b ret
      show Runs _ (if _ then _ else _)
      split
      · exact runs_throw _
      · exact runs_bind (runs_lift _) fun _ => ih.block _ _ _ _
    · intro sc body b ret
      rcases body with _ | ⟨kind, stmts⟩
      · exact runs_pure _
      · exact runs_foldlM (fun _ _ => ih.stmt _ _ _ _ _) _ _
    · intro rt sc st b ret
      cases st with
      | call name sig args w bc =>
        exact runs_setAsync fun v => runs_bind (ih.lookupCall _ _) fun _ =>
          ih.callStmt _ _ _ _ _ _ _ _ _
      | expr e => exact ih.expr _ _ _ _ _
    · intro rt sc name sig args w bc b ret
      refine runs_bind (ih.evaluate _ _ _ _) fun values => runs_bind ?_ fun opts =>
        runs_bind ?_ fun opts => runs_bind (runs_lift _) fun _ => ih.identExpr _ _ _ _ _ _ _ _
      · rcases w with _ | w
        · exact runs_pure _
        · exact runs_bind (ih.evaluate _ _ _ _) fun _ => runs_bind (runs_lift _) fun _ => runs_lift _
      · split
        · refine runs_bind (runs_foldlM (fun _ _ => ?_) _ _) fun _ => runs_pure _
          split
          · exact runs_throw _
          · exact runs_bind (runs_lift _) fun _ => runs_pure _
        · exact runs_pure _
    · intro sc name s r s' h
      simp only [lookupCall] at h
      rw [bind_of_ok (get_apply s)] at h
      rcases hl : s.lookup sc name with _ | (id | _ | _ | _ | _ | _ | _) <;> rw [hl] at h <;>
        try (cases h; exact .refl)
      rcases hd : s.data sc.module name with _ | k <;> rcases hm : s.modules[sc.module]? with _ | mod <;>
        simp only [hd, hm] at h <;> try (cases h; exact .refl)
      obtain ⟨_, hm', hobj⟩ := State.lookup_eq_importDecl hl
      cases hm.symm.trans hm'
      rcases bind_eq_some h with ⟨e, he, -⟩ | ⟨imod, s₁, hi, h₁⟩
      · exact ih.emitImport _ _ _ _ _ _ he
      rw [bind_of_ok (modify_apply _ s₁), lift_apply] at h₁
      cases h₁
      exact .single (grows_install hm hobj hd (grows_of_runs (ih.emitImport _ _ _ _ _ _ hi))
        (emitImport_imported H hi))
    · intro m dir id
      exact runs_bind (ih.expr _ _ _ _ _) fun _ => runs_bind (runs_lift _) fun _ =>
        runs_bind (runs_lift _) fun _ => runs_lift _

theorem runs_generateTarget (fuel mod : Nat) (filename target : String) :
    Runs (Grows H) (generateTarget H fuel mod filename target : EvalM (State L V D) Q) := by
  refine runs_bind runs_get fun _ => ?_
  show Runs _ (if _ then _ else _)
  split
  · exact runs_throw _
  · exact runs_bind (runs_lift _) fun _ => runs_bind
      ((runsAll H fuel).identExpr _ _ _ _ _ _ _ _) fun _ =>
      runs_bind (runs_lift _) fun _ => runs_lift _

theorem generate_grows {fuel mod : Nat} {filename : String} {targets : List String}
    {s s' : State L V D} {r : Except Err Q} (h : generate H fuel mod filename targets s = some (r, s')) :
    Grows H s s' :=
  grows_of_runs (runs_bind (runs_foldlM (fun _ _ => runs_bind (runs_generateTarget H _ _ _ _) fun _ =>
    runs_pure _) _ _) (fun _ => runs_pure _) s r s' h)

/-- Every state a run of `Generate` ends in, from a state code generation can reach, has
the imports as a forest: an import points to a module parsed after its own, and no module
is imported twice. -/
theorem generate_inv {fuel mod : Nat} {filename : String} {targets : List String}
    {s s' : State L V D} {r : Except Err Q} (hs : Codegen.Reach s.view)
    (h : generate H fuel mod filename targets s = some (r, s')) : Codegen.Inv s'.view :=
  (generate_grows H h).inv (inv_of_reach hs)

/-- The sample run starts from a module just parsed and ends with the import of `lib` in
place. -/
theorem generate_sample_inv :
    Codegen.Reach sampleState.view ∧
      generate sampleHost 12 0 "main.hlb" ["default"] sampleState =
        some (.ok "hello", sampleState.install 0 "lib" libModule) ∧
      Codegen.Inv (sampleState.install 0 "lib" libModule).view :=
  have hs : Codegen.Reach sampleState.view := ⟨sampleState.view, fun _ _ => rfl, .refl⟩
  have h : generate sampleHost 12 0 "main.hlb" ["default"] sampleState =
      some (.ok "hello", sampleState.install 0 "lib" libModule) := rfl
  ⟨hs, h, generate_inv sampleHost hs h⟩

/-- An import's `Data`, once set, is what `Generate` leaves. -/
theorem generate_data_stable {fuel mod : Nat} {filename : String} {targets : List String}
    {s s' : State L V D} {r : Except Err Q} (h : generate H fuel mod filename targets s = some (r, s'))
    {m : Nat} {n : String} {k : Nat} (hd : s.data m n = some k) : s'.data m n = some k :=
  (generate_grows H h).data m n k hd

/-- A second run of the sample, once `lib` is resolved. -/
theorem generate_sample_data_stable :
    generate sampleHost 12 0 "main.hlb" ["default"] (sampleState.install 0 "lib" libModule) =
        some (.ok "hello", sampleState.install 0 "lib" libModule) ∧
      (sampleState.install 0 "lib" libModule).data 0 "lib" = some 1 ∧
      (sampleState.install 0 "lib" libModule).data 0 "lib" = some 1 :=
  have h : generate sampleHost 12 0 "main.hlb" ["default"]
      (sampleState.install 0 "lib" libModule) =
      some (.ok "hello", sampleState.install 0 "lib" libModule) := rfl
  have hd : (sampleState.install 0 "lib" libModule).data 0 "lib" = some 1 := rfl
  ⟨h, hd, generate_data_stable sampleHost h hd⟩

theorem moduleScope_view (k : Nat) : (moduleScope k : Scope L V).view = Codegen.State.moduleScope k :=
  rfl

/-- `EmitIdentExpr` goes through import objects as `Hlb.Codegen.Imports` models it: where
that walk runs out of fuel or fails, the code does too, with the same error and no change of
state; where it reaches an object that is not an import, the code goes on from that object,
in its scope, with no more fuel. -/
theorem emitIdentExpr_view (rt : Kind) (ie : IdentExpr) (args : List V) (opts : List O)
    (ret : Reg V) (s : State L V D) : ∀ (n : Nat) (sc : Scope L V) (lookup : String)
    (b : Option (Binding L)),
    match Codegen.emitIdentExpr s.view n sc.view lookup ie.reference with
    | none => emitIdentExpr H n rt sc ie lookup args opts b ret s = none
    | some (.error e) => emitIdentExpr H n rt sc ie lookup args opts b ret s = some (.error e, s)
    | some (.ok (sc', nd)) => ∃ m sc₂ lookup₂ b₂ o, m ≤ n ∧ sc₂.view = sc' ∧
        s.lookup sc₂ lookup₂ = some o ∧ o.node = nd ∧
        emitIdentExpr H n rt sc ie lookup args opts b ret s =
          emitIdentExpr H m rt sc₂ ie lookup₂ args opts b₂ ret s
  | 0, _, _, _ => rfl
  | n + 1, sc, lookup, b => by
    have hw : emitIdentExpr H (n + 1) rt sc ie lookup args opts b ret s = _ :=
      bind_of_ok (get_apply s) _
    unfold Codegen.emitIdentExpr
    rw [← lookup_view]
    rcases ho : s.lookup sc lookup with _ | (i | bd | fd | bindings | data | p | _)
    · rw [hw, ho]; exact rfl
    · simp only [Option.map_some', Obj.node, view_data, Scope.view]
      rw [hw, ho]
      rcases hd : s.data sc.module lookup with _ | k
      · exact rfl
      rcases hr : ie.reference with _ | r
      · exact rfl
      have ih := emitIdentExpr_view rt ie args opts ret s n (moduleScope k) r none
      rw [moduleScope_view, hr] at ih
      dsimp only
      revert ih
      rcases Codegen.emitIdentExpr s.view n (Codegen.State.moduleScope k) r (some r) with
        _ | (e | ⟨sc', nd⟩)
      · exact id
      · exact id
      · rintro ⟨m, sc₂, lookup₂, b₂, o, hm, h⟩
        exact ⟨m, sc₂, lookup₂, b₂, o, Nat.le_succ_of_le hm, h⟩
    -- any other object: both stop there, or fail at once on an invalid one
    all_goals first
      | rw [hw, ho]; exact rfl
      | simp only [Option.map_some', Obj.node]
        exact ⟨n + 1, sc, lookup, b, _, le_rfl, rfl, ho, rfl, rfl⟩

/-! ## The check after the store -/

theorem lookupCall_resolved {n : Nat} {sc : Scope L V} {name : String} {s : State L V D}
    {id : ImportDecl L} {k : Nat} (hl : s.lookup sc name = some (.importDecl id))
    (hd : s.data sc.module name = some k) : lookupCall H (n + 1) sc name s = some (.ok (), s) := by
  simp only [lookupCall, bind_of_ok (get_apply s), hl, hd]
  rfl

theorem lookupCall_import {n : Nat} {sc : Scope L V} {name : String} {s : State L V D}
    {id : ImportDecl L} {mod : Module L V D} (hl : s.lookup sc name = some (.importDecl id))
    (hd : s.data sc.module name = none) (hm : s.modules[sc.module]? = some mod) :
    lookupCall H (n + 1) sc name s = (do
      let imod ← emitImport H n sc.module mod.directory id
      modify (·.install sc.module name imod)
      lift (H.checkReferences mod.objects name imod.objects)) s := by
  simp only [lookupCall, bind_of_ok (get_apply s), hl, hd, hm]

/-- The walk stores the module `EmitImport` read before `CheckReferences` runs: `lookupCall`
returns what the check returns, an error included, with the import's `Data` set, and from
then on, at every state the walk reaches, a `lookupCall` of the name succeeds with neither
`EmitImport` nor the check run again. -/
theorem lookupCall_stores_before_check {n : Nat} {sc : Scope L V} {name : String}
    {s s₁ : State L V D} {id : ImportDecl L} {mod imod : Module L V D}
    (hl : s.lookup sc name = some (.importDecl id)) (hd : s.data sc.module name = none)
    (hm : s.modules[sc.module]? = some mod)
    (hi : emitImport H n sc.module mod.directory id s = some (.ok imod, s₁)) :
    lookupCall H (n + 1) sc name s =
        some (H.checkReferences mod.objects name imod.objects, s₁.install sc.module name imod) ∧
      ∀ t n', Grows H (s₁.install sc.module name imod) t →
        lookupCall H (n' + 1) sc name t = some (.ok (), t) := by
  obtain ⟨_, hm', hobj⟩ := State.lookup_eq_importDecl hl
  cases hm.symm.trans hm'
  have hg := grows_install hm hobj hd (grows_of_runs ((runsAll H n).emitImport _ _ _ _ _ _ hi))
    (emitImport_imported H hi)
  refine ⟨?_, fun t n' ht =>
    lookupCall_resolved H ((hg.trans ht).lookup hl) (ht.data _ _ _ (if_pos ⟨rfl, rfl⟩))⟩
  rw [lookupCall_import H hl hd hm, bind_of_ok hi, bind_of_ok (modify_apply _ s₁), lift_apply]

/-- A checker that rejects every reference. -/
def rejectingHost : Host String String Unit String String String :=
  { sampleHost with checkReferences := fun _ _ _ => .error (.plain "undefined reference") }

/-- `lib` is read and stored, the check fails, and `lib` stays resolved. -/
theorem lookupCall_sample_stores_before_check :
    sampleState.lookup (moduleScope 0) "lib" =
        some (.importDecl ⟨.basicLit (.str [.text "lib.hlb".toList]), false⟩) ∧
      sampleState.data 0 "lib" = none ∧
      emitImport rejectingHost 3 0 "." ⟨.basicLit (.str [.text "lib.hlb".toList]), false⟩
        sampleState = some (.ok libModule, sampleState) ∧
      lookupCall rejectingHost 4 (moduleScope 0) "lib" sampleState =
        some (.error (.plain "undefined reference"), sampleState.install 0 "lib" libModule) ∧
      ∀ t n', Grows rejectingHost (sampleState.install 0 "lib" libModule) t →
        lookupCall rejectingHost (n' + 1) (moduleScope 0) "lib" t = some (.ok (), t) :=
  have hl : sampleState.lookup (moduleScope 0) "lib" =
      some (.importDecl ⟨.basicLit (.str [.text "lib.hlb".toList]), false⟩) := rfl
  have hd : sampleState.data 0 "lib" = none := rfl
  have hi : emitImport rejectingHost 3 0 "." ⟨.basicLit (.str [.text "lib.hlb".toList]), false⟩
      sampleState = some (.ok libModule, sampleState) := rfl
  ⟨hl, hd, hi, lookupCall_stores_before_check rejectingHost hl hd rfl hi⟩

/-! ## A register holding an error -/

/-- What a computation does to a register that holds the error `e`: the register stays as it
is, or an error is returned. -/
def KeepsError (e : Err) (x : EvalM (State L V D) (Reg V)) : Prop :=
  ∀ s r s', x s = some (r, s') → r = .ok (.error e) ∨ ∃ e', r = .error e'

theorem keepsError_foldlM {γ : Type} {e : Err} {f : Reg V → γ → EvalM (State L V D) (Reg V)}
    (hf : ∀ c, KeepsError e (f (.error e) c)) :
    ∀ l : List γ, KeepsError e (l.foldlM f (.error e))
  | [] => by rintro s r s' ⟨⟩; exact .inl rfl
  | c :: l => by
    intro s r s' h
    rw [List.foldlM_cons] at h
    rcases bind_eq_some h with ⟨e', -, rfl⟩ | ⟨a, s₁, ha, hr⟩
    · exact .inr ⟨e', rfl⟩
    · rcases hf c _ _ _ ha with ha' | ⟨_, ha'⟩ <;> cases ha'
      exact keepsError_foldlM hf l _ _ _ hr

/-- A computation that ends by setting a value on the register keeps its error. -/
theorem keepsError_set {β : Type} {e : Err} (x : EvalM (State L V D) β) (g : β → V) :
    KeepsError e (x >>= fun p => pure (Reg.set (g p) (.error e))) := by
  intro s r s' h
  rcases bind_eq_some h with ⟨e', -, rfl⟩ | ⟨_, _, -, hr⟩
  · exact .inr ⟨e', rfl⟩
  · cases hr; exact .inl rfl

theorem keepsError_basicLit (e : Err) (n : Nat) (rt : Kind) (sc : Scope L V) (lit : BasicLit L) :
    KeepsError e (emitBasicLit H n rt sc lit (.error e)) := by
  cases n with
  | zero => rintro s r s' ⟨⟩
  | succ n =>
    cases lit with
    | str fragments => exact keepsError_set _ _
    | heredoc h => exact keepsError_set _ _
    | _ => rintro s r s' ⟨⟩; exact .inl rfl

theorem keepsError_emit (e : Err) : ∀ n,
    (∀ rt (sc : Scope L V) ex b, KeepsError e (emitExpr H n rt sc ex b (.error e))) ∧
    (∀ (sc : Scope L V) body b, KeepsError e (emitBlock H n sc body b (.error e))) ∧
    ∀ rt (sc : Scope L V) st b, KeepsError e (emitStmt H n rt sc st b (.error e))
  | 0 => ⟨fun _ _ _ _ _ _ _ h => (by cases h), fun _ _ _ _ _ _ h => (by cases h),
      fun _ _ _ _ _ _ _ h => (by cases h)⟩
  | n + 1 => by
    obtain ⟨_, hB, hS⟩ := keepsError_emit e n
    refine ⟨fun rt sc ex b => ?_, fun sc body b => ?_, fun rt sc st b => ?_⟩
    · cases ex with
      | funcLit kind stmts => exact hB _ _ _
      | basicLit lit => exact keepsError_basicLit H e n rt sc lit
      | callExpr name sig args => rintro s r s' ⟨⟩; exact .inl rfl
    · rcases body with _ | ⟨kind, stmts⟩
      · rintro s r s' ⟨⟩; exact .inl rfl
      · exact keepsError_foldlM (fun st => hS _ _ st _) stmts
    · cases st with
      | call name sig args w bc => rintro s r s' ⟨⟩; exact .inl rfl
      | expr ex => exact (keepsError_emit e n).1 _ _ _ _

/-- A call statement, or a statement that is a call expression: what `SetAsync` runs. -/
def Stmt.isCall : Stmt L → Bool
  | .call .. => true
  | .expr (.callExpr ..) => true
  | .expr _ => false

/-- A call on a register that holds an error does not run. -/
theorem emitStmt_call_of_error {n : Nat} {rt : Kind} {sc : Scope L V} {st : Stmt L}
    {b : Option (Binding L)} {e : Err} (hc : st.isCall) :
    emitStmt H (n + 2) rt sc st b (.error e) = pure (.error e) := by
  match st, hc with
  | .call .., _ => rfl
  | .expr (.callExpr ..), _ => rfl

theorem foldlM_skips_calls (n : Nat) (kind : Kind) (sc : Scope L V) (b : Option (Binding L))
    (e : Err) : ∀ stmts : List (Stmt L),
    stmts.foldlM (fun ret st => emitStmt H (n + 2) kind sc st b ret) (.error e) =
      (stmts.filter (!·.isCall)).foldlM (fun ret st => emitStmt H (n + 2) kind sc st b ret)
        (.error e)
  | [] => rfl
  | st :: stmts => by
    rw [List.foldlM_cons, List.filter_cons]
    cases hc : st.isCall
    · funext s
      rw [Bool.not_false, if_pos rfl, List.foldlM_cons, bind_apply, bind_apply]
      rcases h : emitStmt H (n + 2) kind sc st b (.error e) s with _ | ⟨_ | r, s'⟩
      · rfl
      · rfl
      · obtain rfl : r = .error e := by
          obtain h' | ⟨_, ⟨⟩⟩ := (keepsError_emit H e (n + 2)).2.2 kind sc st b s _ s' h
          exact Except.ok.inj h'
        exact congrFun (foldlM_skips_calls n kind sc b e stmts) s'
    · rw [emitStmt_call_of_error H hc, pure_bind, if_neg (by simp), foldlM_skips_calls n kind sc b e]

/-- Once the register of a block holds an error, the block runs as if it had no call
statement and no call expression: each of those leaves the register and the state as they
are (`SetAsync` skips it), the other statements run, the interpolations of a string literal
included, and the block ends with the error in the register, or returns an error. -/
theorem emitBlock_of_error (n : Nat) (sc : Scope L V) (kind : Kind) (stmts : List (Stmt L))
    (b : Option (Binding L)) (e : Err) :
    (∀ st : Stmt L, st.isCall → emitStmt H (n + 2) kind sc st b (.error e) = pure (.error e)) ∧
      emitBlock H (n + 3) sc (some (kind, stmts)) b (.error e) =
        (stmts.filter (!·.isCall)).foldlM (fun ret st => emitStmt H (n + 2) kind sc st b ret)
          (.error e) ∧
      ∀ s r s', emitBlock H (n + 3) sc (some (kind, stmts)) b (.error e) s = some (r, s') →
        r = .ok (.error e) ∨ ∃ e', r = .error e' :=
  ⟨fun _ hc => emitStmt_call_of_error H hc, foldlM_skips_calls H n kind sc b e stmts,
    (keepsError_emit H e (n + 3)).2.1 sc _ b⟩

/-- After an error, a literal `"${lib.greeting}"` still resolves `lib`, and a call of
`lib.greeting` does not run: the register keeps the error. -/
example : emitBlock sampleHost 16 (moduleScope 0)
    (some (Kind.string,
      [.expr (.basicLit (.str [.interpolated (.callExpr ⟨"lib", some "greeting"⟩ [] [])])),
        .call ⟨"lib", some "greeting"⟩ [] [] none none]))
    none (.error (.plain "bad")) sampleState =
    some (.ok (.error (.plain "bad")), sampleState.install 0 "lib" libModule) := rfl

/-! ## Literals -/

/-- A string literal with no interpolation changes no state, and the walk sets the value of
the bytes `EmitStringLit` gives for it, as `Hlb.Codegen.StringLit` models it. -/
theorem emitBasicLit_str {n : Nat} {rt : Kind} {sc : Scope L V}
    {frags : List (StringFragment (Expr L))} (hf : ∀ f ∈ frags, ∀ x, f ≠ .interpolated x)
    (emitExpr : Expr L → Except Err (List Nat)) (ret : Reg V) (s : State L V D) :
    emitBasicLit H (n + 1) rt sc (.str frags) ret s =
      some ((fun b => Reg.set (H.ofString b) ret) <$> emitStringLit emitExpr frags, s) := by
  have hg : ∀ f ∈ frags, stringLitPiece (interpolate H n rt sc) f = lift (stringPiece emitExpr f) := by
    intro f hm
    cases f with
    | interpolated x => exact absurd rfl (hf _ hm x)
    | _ => rfl
  show ((frags.foldlM _ [] : EvalM (State L V D) (List (List Nat))) >>= fun pieces => pure _) s = _
  rw [bind_apply, foldlM_snoc_lift hg, emitStringLit_eq_mapM]
  rcases frags.mapM (stringPiece emitExpr) with e | ps <;> rfl

/-- A string literal of text and escapes as the lexer delivers them, in the walk: it changes
no state; when every escape is `\$` or a complete escape sequence, the register gets the value
of the bytes of its fragments, which are those `Unquote` gives for the literal when it has no
raw newline; otherwise the literal fails with `ErrSyntax`. -/
theorem emitBasicLit_unquote {n : Nat} {rt : Kind} {sc : Scope L V}
    {frags : List (StringFragment (Expr L))} (h : ∀ f ∈ frags, TextOrEscape f) (ret : Reg V)
    (s : State L V D) :
    ((∀ f ∈ frags, ReadEscape f) →
      emitBasicLit H (n + 1) rt sc (.str frags) ret s =
          some (.ok (Reg.set (H.ofString (frags.flatMap fragmentBytes)) ret), s) ∧
        ('\n' ∉ frags.flatMap literalText →
          unquote (frags.flatMap literalText) = .ok (frags.flatMap fragmentBytes))) ∧
      ((∃ f ∈ frags, ¬ReadEscape f) →
        emitBasicLit H (n + 1) rt sc (.str frags) ret s = some (.error .errSyntax, s)) := by
  have hf : ∀ f ∈ frags, ∀ x, f ≠ .interpolated x := fun f hm x hx =>
    (hx ▸ h f hm : TextOrEscape (StringFragment.interpolated x))
  rw [emitBasicLit_str H hf (fun _ => .ok []) ret s]
  refine ⟨fun hr => ⟨by rw [emitStringLit_of_read _ h hr]; rfl, fun hn => ?_⟩, fun hr => ?_⟩
  · exact (unquote_eq_unquoteChars hn).trans (unquoteChars_lexed fun f hm => ⟨h f hm, hr f hm⟩)
  · rw [emitStringLit_of_not_read _ h hr]
    rfl

/-- The literal `"a\$b"`. -/
def dollarLit : List (StringFragment (Expr String)) := [.text ['a'], .escaped ['\\', '$'], .text ['b']]

theorem emitBasicLit_sample_dollar :
    (∀ f ∈ dollarLit, TextOrEscape f) ∧
      ((∀ f ∈ dollarLit, ReadEscape f) →
        emitBasicLit sampleHost 1 Kind.string (moduleScope 0) (.str dollarLit) (.ok "") sampleState =
            some (.ok (Reg.set (sampleHost.ofString (dollarLit.flatMap fragmentBytes)) (.ok "")),
              sampleState) ∧
          ('\n' ∉ dollarLit.flatMap literalText →
            unquote (dollarLit.flatMap literalText) = .ok (dollarLit.flatMap fragmentBytes))) ∧
      ((∃ f ∈ dollarLit, ¬ReadEscape f) →
        emitBasicLit sampleHost 1 Kind.string (moduleScope 0) (.str dollarLit) (.ok "") sampleState =
          some (.error .errSyntax, sampleState)) :=
  have h : ∀ f ∈ dollarLit, TextOrEscape f := by
    simp only [dollarLit, List.mem_cons, List.mem_singleton, List.not_mem_nil, or_false,
      forall_eq_or_imp, forall_eq]
    exact ⟨(by decide : ∀ c ∈ ['a'], c ≠ '"' ∧ c ≠ '\\'), ⟨'$', rfl⟩,
      (by decide : ∀ c ∈ ['b'], c ≠ '"' ∧ c ≠ '\\')⟩
  ⟨h, emitBasicLit_unquote sampleHost h (.ok "") sampleState⟩

/-- The walk sets `a$b`. -/
example : emitBasicLit sampleHost 1 Kind.string (moduleScope 0) (.str dollarLit) (.ok "")
    sampleState = some (.ok (.ok "a$b"), sampleState) := rfl

/-- A heredoc with no interpolation changes no state, and the walk sets the value of the
text `EmitHeredoc` gives for it, as `Hlb.Codegen.Heredoc` models it. -/
theorem emitBasicLit_heredoc {n : Nat} {rt : Kind} {sc : Scope L V} {h : Heredoc (Expr L)}
    (hf : ∀ f ∈ h.fragments, ∀ x, f ≠ .interpolated x) (emitExpr : Expr L → Except Err (List Char))
    (ret : Reg V) (s : State L V D) :
    emitBasicLit H (n + 1) rt sc (.heredoc h) ret s =
      some ((fun t => Reg.set (H.ofString (encode t)) ret) <$> emitHeredoc H.dedent emitExpr h, s) := by
  have hg : ∀ f ∈ h.fragments,
      heredocLitPiece (interpolate H n rt sc) f = lift (heredocPiece emitExpr f) := by
    intro f hm
    cases f with
    | interpolated x => exact absurd rfl (hf _ hm x)
    | _ => rfl
  show ((h.fragments.foldlM _ [] : EvalM (State L V D) (List (List Char))) >>= fun pieces => pure _) s = _
  rw [bind_apply, foldlM_snoc_lift hg, emitHeredoc]
  rcases h.fragments.mapM (heredocPiece emitExpr) with e | ps <;> rfl

/-! ## One value for each -/

/-- `Evaluate` that succeeds gives one value for each expression. -/
theorem length_evaluate {n : Nat} {sc : Scope L V} {b : Option (Binding L)} {kinds : List Kind}
    {exprs : List (Expr L)} {s s' : State L V D} {vs : List V}
    (h : evaluate H n sc b kinds exprs s = some (.ok vs, s')) : vs.length = exprs.length := by
  cases n with
  | zero => cases h
  | succ n =>
    unfold evaluate at h
    split at h
    · cases h
    · rename_i hl
      rw [length_foldlM_snoc (fun acc ke s r s' h => ?_) _ [] s vs s' h, List.length_nil,
        Nat.zero_add, List.length_zip]
      · omega
      obtain ⟨ret, s₁, -, h₁⟩ := bind_eq_ok h
      obtain ⟨v, s₂, -, h₂⟩ := bind_eq_ok h₁
      cases h₂
      exact List.length_append _ _

/-- One literal of kind `string`, evaluated. -/
theorem evaluate_sample_literal :
    evaluate sampleHost 3 (moduleScope 0) none [Kind.string] [.basicLit (.plain "x")] sampleState =
        some (.ok ["x"], sampleState) ∧
      ["x"].length = [(Expr.basicLit (.plain "x") : Expr String)].length :=
  have h : evaluate sampleHost 3 (moduleScope 0) none [Kind.string] [.basicLit (.plain "x")] sampleState =
      some (.ok ["x"], sampleState) := rfl
  ⟨h, length_evaluate sampleHost h⟩

/-! ## `Generate` -/

theorem generateTarget_defined {fuel mod : Nat} {filename target : String} {s s' : State L V D}
    {q : Q} (h : generateTarget H fuel mod filename target s = some (.ok q, s')) :
    (s.modules[mod]?.bind (·.objects target)).isSome := by
  unfold generateTarget at h
  rw [bind_of_ok (get_apply s)] at h
  split at h
  · cases h
  · rename_i hn
    revert hn
    cases s.modules[mod]?.bind (·.objects target) <;> simp

/-- The targets compiled one after another from `s` to `s'`, each from the state the one
before left, and giving its request. -/
inductive TargetsRun (fuel mod : Nat) (filename : String) :
    List String → State L V D → List Q → State L V D → Prop
  | nil (s : State L V D) : TargetsRun fuel mod filename [] s [] s
  | cons {t : String} {targets : List String} {s s₁ s' : State L V D} {q : Q} {qs : List Q} :
      generateTarget H fuel mod filename t s = some (.ok q, s₁) →
      TargetsRun fuel mod filename targets s₁ qs s' →
      TargetsRun fuel mod filename (t :: targets) s (q :: qs) s'

/-- The loop of `Generate` appends the requests of the targets, compiled one after another. -/
theorem foldlM_generateLoop_iff {fuel mod : Nat} {filename : String} :
    ∀ (targets : List String) (acc : List Q) (s s' : State L V D) (rs : List Q),
      targets.foldlM (generateLoop H fuel mod filename) acc s = some (.ok rs, s') ↔
        ∃ qs, TargetsRun H fuel mod filename targets s qs s' ∧ rs = acc ++ qs
  | [], acc, s, s', rs => by
    constructor
    · rintro ⟨⟩
      exact ⟨[], .nil s, (List.append_nil acc).symm⟩
    · rintro ⟨qs, hr, rfl⟩
      cases hr
      rw [List.append_nil]
      rfl
  | t :: targets, acc, s, s', rs => by
    rw [List.foldlM_cons]
    constructor
    · intro h
      obtain ⟨acc', s₁, hloop, hrest⟩ := bind_eq_ok h
      obtain ⟨q, s₂, ht, hacc⟩ := bind_eq_ok hloop
      cases hacc
      obtain ⟨qs, hr, rfl⟩ := (foldlM_generateLoop_iff targets _ s₁ s' rs).1 hrest
      exact ⟨q :: qs, .cons ht hr, by rw [List.append_assoc, List.singleton_append]⟩
    · rintro ⟨_, hr, rfl⟩
      cases hr with
      | @cons _ _ _ s₁ _ q qs ht hr =>
        have hloop : generateLoop H fuel mod filename acc t s = some (.ok (acc ++ [q]), s₁) :=
          bind_of_ok ht fun request => pure (acc ++ [request])
        rw [bind_of_ok hloop]
        exact (foldlM_generateLoop_iff targets _ _ s' _).2 ⟨qs, hr, by simp⟩

theorem targetsRun_defined {fuel mod : Nat} {filename : String} {targets : List String}
    {s s' : State L V D} {qs : List Q} (hr : TargetsRun H fuel mod filename targets s qs s') :
    mod < s.modules.length → ∀ t ∈ targets, (s.modules[mod]?.bind (·.objects t)).isSome := by
  induction hr with
  | nil => exact fun _ _ h => absurd h (List.not_mem_nil _)
  | @cons t targets s s₁ _ _ _ ht _ ih =>
    intro hmod t hmem
    rcases List.mem_cons.1 hmem with rfl | hmem
    · exact generateTarget_defined H ht
    · have hg := (grows_of_runs (runs_generateTarget H _ _ _ _ _ _ _ ht)).modules
      obtain ⟨a, ha⟩ : ∃ a, s.modules[mod]? = some a := ⟨_, List.getElem?_eq_getElem hmod⟩
      have hd := ih (lt_of_lt_of_le hmod hg.length_le) t hmem
      rwa [getElem?_of_isPrefix hg ha, ← ha] at hd

/-- `Generate` succeeds exactly when the targets, compiled one after another, each from the
state the one before left, each give a request; it then returns `Parallel` over those
requests, in the order of the targets. Every target it compiles is an object of the
module's scope. -/
theorem generate_ok {fuel mod : Nat} {filename : String} {targets : List String}
    {s s' : State L V D} {q : Q} (hmod : mod < s.modules.length) :
    (generate H fuel mod filename targets s = some (.ok q, s') ↔
        ∃ requests, TargetsRun H fuel mod filename targets s requests s' ∧
          q = H.parallel requests) ∧
      (generate H fuel mod filename targets s = some (.ok q, s') →
        ∀ t ∈ targets, (s.modules[mod]?.bind (·.objects t)).isSome) := by
  have hiff : generate H fuel mod filename targets s = some (.ok q, s') ↔
      ∃ requests, TargetsRun H fuel mod filename targets s requests s' ∧
        q = H.parallel requests := by
    constructor
    · intro h
      obtain ⟨rs, s₁, hl, hp⟩ := bind_eq_ok h
      cases hp
      obtain ⟨qs, hr, hrs⟩ := (foldlM_generateLoop_iff H targets [] s _ rs).1 hl
      exact ⟨qs, hr, by rw [hrs, List.nil_append]⟩
    · rintro ⟨qs, hr, rfl⟩
      exact bind_of_ok ((foldlM_generateLoop_iff H targets [] s s' qs).2 ⟨qs, hr, rfl⟩) _
  refine ⟨hiff, fun h => ?_⟩
  obtain ⟨_, hr, -⟩ := hiff.1 h
  exact targetsRun_defined H hr hmod

/-- The sample's one target gives one request. -/
theorem generate_sample_ok :
    0 < sampleState.modules.length ∧
      (generate sampleHost 12 0 "main.hlb" ["default"] sampleState =
          some (.ok "hello", sampleState.install 0 "lib" libModule) ↔
        ∃ requests, TargetsRun sampleHost 12 0 "main.hlb" ["default"] sampleState requests
            (sampleState.install 0 "lib" libModule) ∧ "hello" = sampleHost.parallel requests) ∧
      (generate sampleHost 12 0 "main.hlb" ["default"] sampleState =
          some (.ok "hello", sampleState.install 0 "lib" libModule) →
        ∀ t ∈ ["default"], (sampleState.modules[0]?.bind (·.objects t)).isSome) :=
  have hm : 0 < sampleState.modules.length := by decide
  ⟨hm, generate_ok sampleHost hm⟩

/-- The run that gives it. -/
example : TargetsRun sampleHost 12 0 "main.hlb" ["default"] sampleState ["hello"]
    (sampleState.install 0 "lib" libModule) :=
  .cons rfl (.nil _)

/-- `Generate` that fails returns the first error in the order of the targets: the error of
one target, after every target before it gave its request. -/
theorem generate_error {fuel mod : Nat} {filename : String} {targets : List String}
    {s s' : State L V D} {e : Err} (h : generate H fuel mod filename targets s = some (.error e, s')) :
    ∃ pre t post requests s₁, targets = pre ++ t :: post ∧
      pre.foldlM (generateLoop H fuel mod filename) [] s = some (.ok requests, s₁) ∧
      generateTarget H fuel mod filename t s₁ = some (.error e, s') := by
  rcases bind_eq_some h with ⟨e', hl, he⟩ | ⟨_, _, -, hp⟩
  · cases he
    obtain ⟨pre, t, post, requests, s₁, rfl, hpre, ht⟩ := foldlM_eq_error hl
    refine ⟨pre, t, post, requests, s₁, rfl, hpre, ?_⟩
    rcases bind_eq_some ht with ⟨_, ht', he⟩ | ⟨_, _, -, hp⟩
    · cases he
      exact ht'
    · cases hp
  · cases hp

/-- Of the targets `default` and `missing`, the second is not defined: the error names it,
and `lib`, read for the first, stays read. -/
theorem generate_sample_error :
    generate sampleHost 12 0 "main.hlb" ["default", "missing"] sampleState =
        some (.error (.plain "target \"missing\" is not defined in main.hlb"),
          sampleState.install 0 "lib" libModule) ∧
      ∃ pre t post requests s₁, ["default", "missing"] = pre ++ t :: post ∧
        pre.foldlM (generateLoop sampleHost 12 0 "main.hlb") [] sampleState =
          some (.ok requests, s₁) ∧
        generateTarget sampleHost 12 0 "main.hlb" t s₁ =
          some (.error (.plain "target \"missing\" is not defined in main.hlb"),
            sampleState.install 0 "lib" libModule) :=
  have h : generate sampleHost 12 0 "main.hlb" ["default", "missing"] sampleState =
      some (.error (.plain "target \"missing\" is not defined in main.hlb"),
        sampleState.install 0 "lib" libModule) := rfl
  ⟨h, generate_error sampleHost h⟩

/-- An import of a file that does not exist fails with `ImportPathNotExist` on the import's
expression. -/
example : generate sampleHost 12 0 "main.hlb" ["default"] (importing "missing.hlb") =
    some (.error (.importPathNotExist (.plain "file does not exist") .expr "missing.hlb"),
      importing "missing.hlb") := rfl

end Hlb.Codegen.Eval
