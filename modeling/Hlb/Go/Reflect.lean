/-
  Hlb.Go.Reflect — what `reflect` shows `CheckPrototype` and `EmitBuiltinDecl` of Go's
  types: whether a type is an interface, its identity, its method set, `Type.Implements`,
  the assignability `Value.Call` checks each argument against, and function types.

  A type is an interface type or a concrete one, each by name with its method set, or an
  unnamed slice `[]E` (the type of a variadic parameter `...E`). `Implements(u)` panics
  unless `u` is an interface type; otherwise it holds when every method of `u` is a method
  of the receiver. A value of dynamic type `t` is assignable to `u` when the two are
  identical or `u` is an interface whose methods `t` has. (Go also assigns between an
  unnamed type and a named one of the same underlying type; the prefix of a callable that
  `CheckPrototype` accepts is matched by identity or through interfaces, so that rule is
  not modelled.)

  `Value.Call` checks its arguments before it calls: their number against the regular
  parameters (more is allowed only for a variadic function), then each argument's dynamic
  type against its parameter, the extra ones against the variadic element type; it panics
  at the first that fails (`callCheck`, with the panic's message).

  Proved:
  - `callCheck_eq_none`: the checks pass exactly when the count fits and every argument is
    assignable to its parameter or to the variadic element type.
  - `callCheck_append_eq_none_iff`: for regular arguments followed by extra ones the element
    type takes, exactly when each regular one is assignable to its parameter.
-/
import Mathlib.Data.List.Forall2

namespace Hlb.Go

inductive GoType where
  | iface (name : String) (methods : List String)
  | concrete (name : String) (methods : List String)
  | slice (elem : GoType)
  deriving DecidableEq, Repr

namespace GoType

def isInterface : GoType → Bool
  | iface .. => true
  | _ => false

def methodSet : GoType → List String
  | iface _ ms => ms
  | concrete _ ms => ms
  | slice _ => []

def name : GoType → String
  | iface n _ => n
  | concrete n _ => n
  | slice e => "[]" ++ e.name

/-- Every method of `u` is one of `t`'s. -/
def hasMethodsOf (t u : GoType) : Bool := u.methodSet.all (t.methodSet.contains ·)

/-- `t.Implements(u)`: the error is the panic's message. -/
def implements (t u : GoType) : Except String Bool :=
  if u.isInterface then .ok (t.hasMethodsOf u)
  else .error "reflect: non-interface type passed to Type.Implements"

/-- A value of dynamic type `t` can be passed where `u` is expected. -/
def assignableTo (t u : GoType) : Bool := t == u || (u.isInterface && t.hasMethodsOf u)

theorem hasMethodsOf_trans {t u v : GoType} (h₁ : t.hasMethodsOf u) (h₂ : u.hasMethodsOf v) :
    t.hasMethodsOf v := by
  simp only [hasMethodsOf, List.all_eq_true, List.elem_iff, List.contains] at *
  exact fun m hm => h₁ m (h₂ m hm)

end GoType

/-- A function type as `reflect` shows it: `In(i)` are the parameters and, for a variadic
function `...E`, the slice `[]E` last; `Out(i)` the results. -/
structure FuncType where
  params : List GoType
  variadic : Option GoType
  outs : List GoType
  deriving DecidableEq, Repr

namespace FuncType

def ins (f : FuncType) : List GoType := f.params ++ f.variadic.toList.map .slice

def numIn (f : FuncType) : Nat := f.ins.length

def isVariadic (f : FuncType) : Bool := f.variadic.isSome

@[simp] theorem numIn_eq (f : FuncType) :
    f.numIn = f.params.length + if f.isVariadic then 1 else 0 := by
  cases h : f.variadic <;> simp [numIn, ins, isVariadic, h]

/-- `Value.Call`'s checks on the dynamic types of its arguments: the panic, if any. -/
def callCheck (f : FuncType) (args : List GoType) : Option String :=
  if args.length < f.params.length then some "reflect: Call with too few input arguments"
  else if !f.isVariadic && f.params.length < args.length then
    some "reflect: Call with too many input arguments"
  else
    match (args.zip f.params).find? fun (x, t) => !x.assignableTo t with
    | some (x, t) => some ("reflect: Call using " ++ x.name ++ " as type " ++ t.name)
    | none =>
      match f.variadic with
      | none => none
      | some e => ((args.drop f.params.length).find? (!·.assignableTo e)).map fun x =>
          "reflect: cannot use " ++ x.name ++ " as type " ++ e.name ++ " in Call"

/-- `Value.Call` does not panic exactly when there are as many arguments as regular
parameters, or more for a variadic function, each is assignable to its parameter, and each
extra one to the variadic element type. -/
theorem callCheck_eq_none {f : FuncType} {args : List GoType} :
    f.callCheck args = none ↔ f.params.length ≤ args.length ∧
      (f.isVariadic ∨ args.length ≤ f.params.length) ∧
      (∀ q ∈ args.zip f.params, q.1.assignableTo q.2) ∧
      ∀ e, f.variadic = some e → ∀ x ∈ args.drop f.params.length, x.assignableTo e := by
  unfold callCheck
  split_ifs with h1 h2
  · simp only [reduceCtorEq, false_iff, not_and]; omega
  · simp only [Bool.and_eq_true, Bool.not_eq_true', decide_eq_true_eq] at h2
    simp only [reduceCtorEq, false_iff, not_and, h2.1, Bool.false_eq_true, false_or]; omega
  · have hB : f.isVariadic ∨ args.length ≤ f.params.length := by
      cases hv : f.isVariadic <;> simp_all
    simp only [Nat.not_lt.mp h1, hB, true_and]
    split
    · rename_i x t hf
      simp only [reduceCtorEq, false_iff, not_and]
      exact fun hall => absurd (hall _ (List.mem_of_find?_eq_some hf)) (by simpa using List.find?_some hf)
    · rename_i hf
      have hall : ∀ q ∈ args.zip f.params, q.1.assignableTo q.2 := by simpa using hf
      rw [and_iff_right hall]
      cases f.variadic <;> simp

/-- Arguments that match the regular parameters one for one, followed by extra ones that the
variadic element type takes, are called exactly when each regular one is assignable to its
parameter. -/
theorem callCheck_append_eq_none_iff {f : FuncType} {xs ys : List GoType}
    (hl : xs.length = f.params.length)
    (hys : match f.variadic with
      | none => ys = []
      | some e => ∀ y ∈ ys, y.assignableTo e) :
    f.callCheck (xs ++ ys) = none ↔ List.Forall₂ (fun x t => x.assignableTo t) xs f.params := by
  have hz : (xs ++ ys).zip f.params = xs.zip f.params := by
    conv_lhs => rw [← List.append_nil f.params]
    rw [List.zip_append hl, List.zip_nil_right, List.append_nil]
  rw [callCheck_eq_none, hz, List.drop_left' hl, List.forall₂_iff_zip, List.length_append, hl]
  cases hv : f.variadic <;> simp only [hv] at hys
  · simp [isVariadic, hv, hys]
  · simpa [isVariadic, hv] using fun _ => hys

end FuncType

end Hlb.Go
