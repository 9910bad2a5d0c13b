/-
  Hlb.Codegen.Imports — `CodeGen.lookupCall` and the walk of `CodeGen.EmitIdentExpr`
  through imported modules.

  An import declaration is resolved lazily. The first `lookupCall` that meets its object
  runs `EmitImport` (read the file, parse it into a new `ast.Module`, check it), stores the
  module in the object's `Data`, and then runs `checker.CheckReferences` on the importing
  module; a later `lookupCall` finds `Data` set and returns at once. `EmitIdentExpr` looks
  the identifier up, and at an import object goes on to the imported module's scope with
  the reference `ie.Reference`, again at every import object it meets there.

  The state is the modules parsed so far, numbered in the order they were parsed, and the
  `Data` of the import objects, each named by its module and its name. What `EmitImport`
  and `CheckReferences` return depends on files and on the checker, so a step takes their
  outcomes as inputs: a step is one `lookupCall` in a scope of a parsed module, with any
  outcomes, and a run is any sequence of steps. A parsed module is new and its import
  objects have no `Data`: the parser and the checker passes set none. (`Hlb.Codegen.Eval`
  runs `EmitImport` inside the walk, and `Hlb.Codegen.EvalProofs` shows that every install
  it makes keeps `Inv`.)

  Proved:
  - `lookupCall_data_stable`, `data_stable_of_steps`: `Data` set on an import object never
    changes again.
  - `lookupCall_installs_unchecked`: `Data` is set before `CheckReferences` runs and stays
    set when it fails, and a second `lookupCall` of the same import then succeeds without
    the check.
  - `emitIdentExpr_after_lookupCall`: after a `lookupCall` of an import that succeeds, and
    any steps after it, `EmitIdentExpr` of that name goes on to the module it imported.
  - `inv_lookupCall`, `inv_of_reach`: in every reachable state an import points from a
    module to one parsed after it, and no module is imported by two import objects.
  - `importPath_lt`, `emitIdentExpr_ends`, `reach_import_forest`: the relation "imports" is
    a forest, with no cycle and one importer at most, however the files import each other;
    and the walk of `EmitIdentExpr` ends, within as many steps as there are modules from
    the one it starts in, at a module reached through a chain of imports.
-/
import Mathlib.Logic.Relation
import Hlb.Codegen.Ast

namespace Hlb.Codegen

/-- The node of a scope object, as `lookupCall` and `EmitIdentExpr` tell them apart. -/
inductive Node where
  | importDecl
  | builtinDecl
  | funcDecl
  | bindClause
  | field
  /-- Any other node. -/
  | other
  deriving DecidableEq, Repr

abbrev Objects := String → Option Node

/-- A scope: the module it belongs to (`Root()`, numbered by the order modules were
parsed in), and the objects of the scopes between it
and the module's scope, which hide the module's. -/
structure Scope where
  module : Nat
  locals : Objects

/-- The modules' scope objects and the `Data` of their import objects. -/
structure State where
  modules : List Objects
  /-- `Data` of the import object `name` of module `m`: the module it imports. -/
  data : Nat → String → Option Nat

namespace State

/-- `scope.Lookup(name)`: the inner scopes first, then the module's. -/
def lookup (s : State) (sc : Scope) (name : String) : Option Node :=
  match sc.locals name with
  | some n => some n
  | none => s.modules[sc.module]?.bind (· name)

/-- The scope of module `k`, `imod.Scope`. -/
def moduleScope (k : Nat) : Scope := ⟨k, fun _ => none⟩

/-- A module just parsed, with scope objects `objs`, stored in the `Data` of the import
object `name` of module `m`. -/
def install (s : State) (m : Nat) (name : String) (objs : Objects) : State where
  modules := s.modules ++ [objs]
  data m' n' := if m' = m ∧ n' = name then some s.modules.length else s.data m' n'

end State

/-- `CodeGen.lookupCall`, with the outcomes of `EmitImport` (the parsed module's scope
objects) and of `CheckReferences`. -/
def lookupCall (s : State) (sc : Scope) (name : String) (imported : Except Err Objects)
    (checked : Except Err Unit) : Except Err Unit × State :=
  match s.lookup sc name with
  | none => (.error (.undefinedIdent name), s)
  | some .importDecl =>
    match s.data sc.module name with
    | some _ => (.ok (), s)
    | none =>
      match imported with
      | .error e => (.error e, s)
      | .ok objs => (checked, s.install sc.module name objs)
  | some _ => (.ok (), s)

/-- `CodeGen.EmitIdentExpr` up to the object it dispatches on: `lookup` in `sc`, and from
an import object, `ie.Reference` in the imported module's scope. The walk is bounded by
`fuel` (`none` when it runs out); the code has no bound. -/
def emitIdentExpr (s : State) : Nat → Scope → String → Option String →
    Option (Except Err (Scope × Node))
  | 0, _, _, _ => none
  | fuel + 1, sc, lookup, ref =>
    match s.lookup sc lookup with
    | none => some (.error (.undefinedIdent lookup))
    | some .importDecl =>
      match s.data sc.module lookup with
      | none => some (.error (.internal "expected imported module to be resolved"))
      | some k =>
        match ref with
        | none => some (.error (.panic nilDereference))
        | some r => emitIdentExpr s fuel (State.moduleScope k) r ref
    | some .other => some (.error (.internal "invalid resolved object"))
    | some n => some (.ok (sc, n))

/-! ## Runs -/

/-- One `lookupCall` in a scope of a parsed module. -/
inductive Step : State → State → Prop where
  | lookupCall {s : State} (sc : Scope) (name : String) (imported : Except Err Objects)
      (checked : Except Err Unit) (hm : sc.module < s.modules.length) :
      Step s (lookupCall s sc name imported checked).2

/-- Modules parsed before code generation: no import object has `Data`. -/
def Initial (s : State) : Prop := ∀ m n, s.data m n = none

/-- The states code generation can reach. -/
def Reach (s : State) : Prop := ∃ s₀, Initial s₀ ∧ Relation.ReflTransGen Step s₀ s

/-- What `lookupCall` can do to the state: nothing, or store a module just parsed in the
`Data` of an import object of the scope's module that had none. -/
theorem lookupCall_state (s : State) (sc : Scope) (name : String) (imported : Except Err Objects)
    (checked : Except Err Unit) :
    (lookupCall s sc name imported checked).2 = s ∨
      ∃ objs, s.data sc.module name = none ∧
        (lookupCall s sc name imported checked).2 = s.install sc.module name objs := by
  unfold lookupCall
  split
  · exact Or.inl rfl
  · split
    · exact Or.inl rfl
    · rename_i hd
      split
      · exact Or.inl rfl
      · exact Or.inr ⟨_, hd, rfl⟩
  · exact Or.inl rfl

theorem install_data (s : State) (m : Nat) (name : String) (objs : Objects) (m' : Nat)
    (n' : String) :
    (s.install m name objs).data m' n' =
      if m' = m ∧ n' = name then some s.modules.length else s.data m' n' := rfl

/-- `Data` once set is kept. -/
theorem lookupCall_data_stable {s : State} {m : Nat} {n : String} {k : Nat}
    (h : s.data m n = some k) (sc : Scope) (name : String) (imported : Except Err Objects)
    (checked : Except Err Unit) : (lookupCall s sc name imported checked).2.data m n = some k := by
  rcases lookupCall_state s sc name imported checked with he | ⟨objs, hn, he⟩
  · rw [he, h]
  · rw [he, install_data]
    split_ifs with hmn
    · rw [← hmn.1, ← hmn.2, h] at hn; cases hn
    · exact h

theorem data_stable_of_steps {s t : State} (hst : Relation.ReflTransGen Step s t) {m : Nat}
    {n : String} {k : Nat} (h : s.data m n = some k) : t.data m n = some k := by
  induction hst with
  | refl => exact h
  | tail _ hstep ih =>
    cases hstep with
    | lookupCall sc name imported checked _ => exact lookupCall_data_stable ih sc name imported checked

/-! ## `lookupCall` before `EmitIdentExpr` -/

theorem install_modules (s : State) (m : Nat) (name : String) (objs : Objects) :
    (s.install m name objs).modules = s.modules ++ [objs] := rfl

/-- Steps only add modules. -/
theorem modules_prefix_of_steps {s t : State} (hst : Relation.ReflTransGen Step s t) :
    s.modules <+: t.modules := by
  induction hst with
  | refl => exact List.prefix_refl _
  | tail _ hstep ih =>
    cases hstep with
    | lookupCall sc name imported checked _ =>
      rcases lookupCall_state _ sc name imported checked with he | ⟨objs, -, he⟩
      · rwa [he]
      · rw [he, install_modules]; exact ih.trans (List.prefix_append _ _)

theorem lookup_of_prefix {s t : State} (h : s.modules <+: t.modules) {sc : Scope} {name : String}
    {n : Node} (hn : s.lookup sc name = some n) : t.lookup sc name = some n := by
  unfold State.lookup at hn ⊢
  split
  · rename_i hl; rwa [hl] at hn
  · rename_i hl
    rw [hl] at hn
    obtain ⟨objs, hobjs, hn⟩ := Option.bind_eq_some.mp hn
    obtain ⟨u, hu⟩ := h
    rw [← hu, List.getElem?_append_left (List.getElem?_eq_some_iff.mp hobjs).1, hobjs]
    exact hn

/-- A `lookupCall` that succeeds on an import object leaves its `Data` set. -/
theorem lookupCall_ok_data {s s₁ : State} {sc : Scope} {name : String}
    {imported : Except Err Objects} {checked : Except Err Unit}
    (hl : lookupCall s sc name imported checked = (.ok (), s₁))
    (hi : s.lookup sc name = some .importDecl) : ∃ k, s₁.data sc.module name = some k := by
  simp only [lookupCall, hi] at hl
  rcases hd : s.data sc.module name with _ | k
  · rcases imported with e | objs <;> simp only [hd, Prod.mk.injEq, reduceCtorEq, false_and] at hl
    rw [← hl.2, install_data, if_pos ⟨rfl, rfl⟩]
    exact ⟨_, rfl⟩
  · simp only [hd, Prod.mk.injEq] at hl
    exact ⟨k, hl.2 ▸ hd⟩

/-- `EmitExpr` runs `lookupCall` on a call's name, and `EmitIdentExpr` later walks from the
same scope: whatever ran in between, when the name is an import and `lookupCall` succeeded,
the walk goes on into the imported module. -/
theorem emitIdentExpr_after_lookupCall {s s₁ s₂ : State} {sc : Scope} {name : String}
    {imported : Except Err Objects} {checked : Except Err Unit}
    (hl : lookupCall s sc name imported checked = (.ok (), s₁))
    (hrun : Relation.ReflTransGen Step s₁ s₂) (hi : s.lookup sc name = some .importDecl)
    (fuel : Nat) (r : String) :
    ∃ k, s₂.data sc.module name = some k ∧
      emitIdentExpr s₂ (fuel + 1) sc name (some r) =
        emitIdentExpr s₂ fuel (State.moduleScope k) r (some r) := by
  obtain ⟨k, hk⟩ := lookupCall_ok_data hl hi
  have hk₂ := data_stable_of_steps hrun hk
  have hpre : s.modules <+: s₂.modules := by
    have h₁ := modules_prefix_of_steps hrun
    rcases lookupCall_state s sc name imported checked with he | ⟨objs, -, he⟩
    · rw [hl] at he
      rwa [show s₁ = s from he] at h₁
    · rw [hl] at he
      rw [show s₁ = s.install sc.module name objs from he, install_modules] at h₁
      exact (List.prefix_append _ _).trans h₁
  refine ⟨k, hk₂, ?_⟩
  rw [emitIdentExpr, lookup_of_prefix hpre hi]
  simp only [hk₂]

/-- The first `lookupCall` of import `a` installs a module, and `a.b` then goes on there. -/
theorem emitIdentExpr_after_first_lookupCall :
    lookupCall ⟨[fun n => if n = "a" then some .importDecl else none], fun _ _ => none⟩
        (State.moduleScope 0) "a" (.ok fun _ => none) (.ok ()) =
      (.ok (), State.install ⟨[fun n => if n = "a" then some .importDecl else none],
        fun _ _ => none⟩ 0 "a" fun _ => none) ∧
    Relation.ReflTransGen Step
      (State.install ⟨[fun n => if n = "a" then some .importDecl else none], fun _ _ => none⟩ 0
        "a" fun _ => none)
      (State.install ⟨[fun n => if n = "a" then some .importDecl else none], fun _ _ => none⟩ 0
        "a" fun _ => none) ∧
    State.lookup ⟨[fun n => if n = "a" then some .importDecl else none], fun _ _ => none⟩
      (State.moduleScope 0) "a" = some .importDecl ∧
    ∃ k, (State.install ⟨[fun n => if n = "a" then some .importDecl else none], fun _ _ => none⟩ 0
        "a" fun _ => none).data (State.moduleScope 0).module "a" = some k ∧
      emitIdentExpr (State.install ⟨[fun n => if n = "a" then some .importDecl else none],
          fun _ _ => none⟩ 0 "a" fun _ => none) (2 + 1) (State.moduleScope 0) "a" (some "b") =
        emitIdentExpr (State.install ⟨[fun n => if n = "a" then some .importDecl else none],
          fun _ _ => none⟩ 0 "a" fun _ => none) 2 (State.moduleScope k) "b" (some "b") :=
  have hl : lookupCall ⟨[fun n => if n = "a" then some .importDecl else none], fun _ _ => none⟩
      (State.moduleScope 0) "a" (.ok fun _ => none) (.ok ()) =
      (.ok (), State.install ⟨[fun n => if n = "a" then some .importDecl else none],
        fun _ _ => none⟩ 0 "a" fun _ => none) := rfl
  have hi : State.lookup ⟨[fun n => if n = "a" then some .importDecl else none], fun _ _ => none⟩
      (State.moduleScope 0) "a" = some .importDecl := rfl
  ⟨hl, .refl, hi, emitIdentExpr_after_lookupCall hl .refl hi 2 "b"⟩

/-! ## The check after the store -/

/-- A module whose scope has one object, the import `a`. -/
def importingModule : Objects := fun n => if n = "a" then some .importDecl else none

/-- `EmitImport` succeeds and `CheckReferences` fails: `lookupCall` returns the error with
`Data` set, and the next `lookupCall` of `a` succeeds whatever the check would say. -/
theorem lookupCall_installs_unchecked :
    Initial ⟨[importingModule], fun _ _ => none⟩ ∧
      (lookupCall ⟨[importingModule], fun _ _ => none⟩ (State.moduleScope 0) "a" (.ok fun _ => none)
        (.error (.external "CheckReferences"))).1 = .error (.external "CheckReferences") ∧
      (lookupCall ⟨[importingModule], fun _ _ => none⟩ (State.moduleScope 0) "a" (.ok fun _ => none)
        (.error (.external "CheckReferences"))).2.data 0 "a" = some 1 ∧
      ∀ imported checked,
        let s₁ := (lookupCall ⟨[importingModule], fun _ _ => none⟩ (State.moduleScope 0) "a"
          (.ok fun _ => none) (.error (.external "CheckReferences"))).2
        lookupCall s₁ (State.moduleScope 0) "a" imported checked = (.ok (), s₁) :=
  ⟨fun _ _ => rfl, rfl, rfl, fun _ _ => rfl⟩

/-! ## The import forest -/

/-- What every reachable state keeps. -/
structure Inv (s : State) : Prop where
  /-- An import object points to a module parsed after its own. -/
  forward : ∀ m n k, s.data m n = some k → m < k ∧ k < s.modules.length
  /-- No module is imported by two import objects. -/
  unique : ∀ m n m' n' k, s.data m n = some k → s.data m' n' = some k → m = m' ∧ n = n'

theorem inv_initial {s : State} (h : Initial s) : Inv s where
  forward m n k hk := by rw [h] at hk; cases hk
  unique m n _ _ _ hk := by rw [h] at hk; cases hk

theorem inv_install {s : State} (hs : Inv s) {m : Nat} (hm : m < s.modules.length)
    (name : String) (objs : Objects) : Inv (s.install m name objs) where
  forward m' n' k hk := by
    rw [install_data] at hk
    simp only [State.install, List.length_append, List.length_singleton]
    split_ifs at hk with h
    · cases hk; omega
    · have := hs.forward m' n' k hk; omega
  unique m₁ n₁ m₂ n₂ k h₁ h₂ := by
    rw [install_data] at h₁ h₂
    split_ifs at h₁ h₂ with e₁ e₂ e₂
    · exact ⟨e₁.1.trans e₂.1.symm, e₁.2.trans e₂.2.symm⟩
    · cases h₁; exact absurd (hs.forward _ _ _ h₂).2 (lt_irrefl _)
    · cases h₂; exact absurd (hs.forward _ _ _ h₁).2 (lt_irrefl _)
    · exact hs.unique _ _ _ _ _ h₁ h₂

theorem inv_lookupCall {s : State} (hs : Inv s) {sc : Scope} (hm : sc.module < s.modules.length)
    (name : String) (imported : Except Err Objects) (checked : Except Err Unit) :
    Inv (lookupCall s sc name imported checked).2 := by
  rcases lookupCall_state s sc name imported checked with he | ⟨objs, -, he⟩
  · rwa [he]
  · rw [he]; exact inv_install hs hm name objs

theorem inv_of_reach {s : State} (h : Reach s) : Inv s := by
  obtain ⟨s₀, h₀, hrun⟩ := h
  induction hrun with
  | refl => exact inv_initial h₀
  | tail _ hstep ih =>
    cases hstep with
    | lookupCall sc name imported checked hm => exact inv_lookupCall ih hm name imported checked

/-- Module `m` imports module `k`: one of its import objects has `k` as `Data`. -/
def Imports (s : State) (m k : Nat) : Prop := ∃ n, s.data m n = some k

theorem importPath_lt {s : State} (hs : Inv s) {m k : Nat}
    (h : Relation.TransGen (Imports s) m k) : m < k := by
  induction h with
  | single he => exact (hs.forward _ _ _ he.choose_spec).1
  | tail _ he ih => exact ih.trans (hs.forward _ _ _ he.choose_spec).1

/-- The walk of `EmitIdentExpr` from a module ends within as many steps as there are modules
from it on, and ends in a module the first imports through a chain of imports. -/
theorem emitIdentExpr_ends {s : State} (hs : Inv s) :
    ∀ (fuel : Nat) (sc : Scope) (lookup : String) (ref : Option String),
      sc.module < s.modules.length → s.modules.length - sc.module ≤ fuel →
      ∃ r, emitIdentExpr s fuel sc lookup ref = some r ∧
        ∀ sc' nd, r = .ok (sc', nd) → Relation.ReflTransGen (Imports s) sc.module sc'.module
  | 0, _, _, _, hm, hf => by omega
  | fuel + 1, sc, lookup, ref, hm, hf => by
    unfold emitIdentExpr
    split
    · exact ⟨_, rfl, fun _ _ h => by cases h⟩
    · split
      · exact ⟨_, rfl, fun _ _ h => by cases h⟩
      · rename_i k hk
        have hlt := hs.forward _ _ _ hk
        split
        · exact ⟨_, rfl, fun _ _ h => by cases h⟩
        · obtain ⟨r, hr, hpath⟩ := emitIdentExpr_ends hs fuel (State.moduleScope k) _ _ hlt.2
            (by simp only [State.moduleScope]; omega)
          exact ⟨r, hr, fun sc' nd he =>
            Relation.ReflTransGen.head ⟨lookup, hk⟩ (hpath sc' nd he)⟩
    · exact ⟨_, rfl, fun _ _ h => by cases h⟩
    · exact ⟨_, rfl, fun _ _ h => by cases h; exact Relation.ReflTransGen.refl⟩

/-- In every reachable state the relation "imports" has no cycle and gives a module at most
one importer, so it is a forest; and the walk of `EmitIdentExpr` from a scope of a parsed
module ends within as many steps as there are modules from that one on, at a module the
first reaches through a chain of imports. -/
theorem reach_import_forest {s : State} (h : Reach s) :
    (∀ m k, Relation.TransGen (Imports s) m k → m < k) ∧
      (∀ m n m' n' k, s.data m n = some k → s.data m' n' = some k → m = m' ∧ n = n') ∧
      ∀ (sc : Scope) (lookup : String) (ref : Option String), sc.module < s.modules.length →
        ∃ r, emitIdentExpr s (s.modules.length - sc.module) sc lookup ref = some r ∧
          ∀ sc' nd, r = .ok (sc', nd) →
            Relation.ReflTransGen (Imports s) sc.module sc'.module :=
  have hs := inv_of_reach h
  ⟨fun _ _ => importPath_lt hs, hs.unique,
    fun sc lookup ref hm => emitIdentExpr_ends hs _ sc lookup ref hm le_rfl⟩

theorem reach_import_forest_one_import :
    let s₁ := (lookupCall ⟨[importingModule], fun _ _ => none⟩ (State.moduleScope 0) "a"
      (.ok fun _ => none) (.ok ())).2
    Reach s₁ ∧
      (∀ m k, Relation.TransGen (Imports s₁) m k → m < k) ∧
      (∀ m n m' n' k, s₁.data m n = some k → s₁.data m' n' = some k → m = m' ∧ n = n') ∧
      ∀ (sc : Scope) (lookup : String) (ref : Option String), sc.module < s₁.modules.length →
        ∃ r, emitIdentExpr s₁ (s₁.modules.length - sc.module) sc lookup ref = some r ∧
          ∀ sc' nd, r = .ok (sc', nd) →
            Relation.ReflTransGen (Imports s₁) sc.module sc'.module :=
  have h : Reach (lookupCall ⟨[importingModule], fun _ _ => none⟩ (State.moduleScope 0) "a"
      (.ok fun _ => none) (.ok ())).2 :=
    ⟨_, fun _ _ => rfl, .single (.lookupCall _ _ _ _ (by decide))⟩
  ⟨h, reach_import_forest h⟩

end Hlb.Codegen
