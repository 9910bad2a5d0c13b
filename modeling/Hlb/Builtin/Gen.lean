/-
  Hlb.Builtin.Gen — `GenerateBuiltins`: the Go source of the `builtin` package, generated
  from the builtin definitions.

  The definitions are parsed, and every function declaration goes into `FuncsByKind` under
  its return kind, in the order of the declarations: its name, its parameters and its
  effects (none when it has no effects clause). `referenceTmpl` then writes the `Lookup`
  table, one entry for each kind (a template `range` over a map goes by sorted keys) and in
  it one entry for each function, and `Reference`, the source text between backticks. A
  kind is written by `kind`, as `template.HTML`; every other value goes through the HTML
  escaper. `format.Source` is applied to the result, which is kept as it is when it is not
  valid Go.

  `parser.Parse` and `format.Source` are parameters: the parser is outside the sources, and
  `format.Source` only lays out the tokens again, so that it keeps the text of every
  literal. The kinds `parser.String`, `Int`, `Bool` and `Filesystem` are the spec's
  `string`, `int`, `bool` and `fs`.

  Proved:
  - `funcsByKind_spec`: `FuncsByKind` holds under a kind exactly the functions declared with
    it, in order, and has a key for each kind some function is declared with.
  - `generateBuiltins_lookup`: the text handed to `format.Source` holds the `Lookup` table
    with one entry for each declared kind, by increasing name and under distinct keys, and in
    it exactly the kind's functions, in order.
  - `generateBuiltins_duplicate_name`: two functions of one kind and name give that kind's
    entry the inner key twice, and `GenerateBuiltins` returns no error.
  - `readRaw_referenceLiteral_iff`: `Reference` reads back as the source text exactly when
    the text has none of the characters the escaper replaces, no backtick and no carriage
    return.
  - `generateBuiltins_escapes_reference`: for the definition `string x() { "world"; }`,
    `Reference` holds `&#34;world&#34;` in place of `"world"`.
-/
import Mathlib.Data.List.Nodup
import Mathlib.Data.String.Basic
import Hlb.Go.Template
import Hlb.Codegen.Ast

namespace Hlb.Builtin

open Hlb.Go Hlb.Codegen

/-- `parser.Field`: its kind, name, and whether it has the `variadic` modifier. -/
structure Field where
  kind : Kind
  name : String
  variadic : Bool
  deriving DecidableEq, Repr

/-- A function declaration as `GenerateBuiltins` reads it; `effects` is `none` without an
effects clause. -/
structure FuncDecl where
  kind : Kind
  name : String
  params : List Field
  effects : Option (List Field)
  deriving DecidableEq, Repr

/-- A declaration of the module: a function, or another one (`decl.Func == nil`). -/
inductive Decl where
  | func (f : FuncDecl)
  | other
  deriving DecidableEq, Repr

structure ParsedFunc where
  name : String
  params : List Field
  effects : List Field
  deriving DecidableEq, Repr

def FuncDecl.parsed (f : FuncDecl) : ParsedFunc := ⟨f.name, f.params, f.effects.getD []⟩

/-- A `map[parser.Kind][]ParsedFunc`: its keys, each once, and the value of every kind,
nil for a kind that is not a key. -/
structure FuncMap where
  keys : List Kind
  get : Kind → List ParsedFunc
  nodup : keys.Nodup
  get_of_not_mem : ∀ k, k ∉ keys → get k = []

namespace FuncMap

def empty : FuncMap := ⟨[], fun _ => [], List.nodup_nil, fun _ _ => rfl⟩

def append (m : FuncMap) (k : Kind) (f : ParsedFunc) : FuncMap where
  keys := if k ∈ m.keys then m.keys else m.keys ++ [k]
  get k' := if k' = k then m.get k ++ [f] else m.get k'
  nodup := by
    split_ifs with h
    · exact m.nodup
    · exact m.nodup.append (List.nodup_singleton k) (List.disjoint_singleton.mpr h)
  get_of_not_mem k' h := by
    by_cases hk' : k' = k
    · subst hk'
      split_ifs at h with hk
      · exact absurd hk h
      · simp at h
    · simp only [hk', if_false]
      apply m.get_of_not_mem k'
      split_ifs at h
      · exact h
      · exact fun hm => h (List.mem_append_left _ hm)

/-- `range` over the map: its entries by increasing key. -/
def entries (m : FuncMap) : List (Kind × List ParsedFunc) :=
  (m.keys.mergeSort fun a b => !(b.name < a.name)).map fun k => (k, m.get k)

end FuncMap

def funcsByKind (decls : List Decl) : FuncMap :=
  decls.foldl (fun m d => match d with
    | .func f => m.append f.kind f.parsed
    | .other => m) FuncMap.empty

structure BuiltinData where
  command : List Char
  funcsByKind : FuncMap
  reference : List Char

/-! ## `referenceTmpl` -/

def kindExpr (k : Kind) : List Char :=
  if k = Kind.string then "parser.String".toList
  else if k = Kind.int then "parser.Int".toList
  else if k = Kind.bool then "parser.Bool".toList
  else if k = Kind.filesystem then "parser.Filesystem".toList
  else quote k.name.toList

def renderParam (p : Field) : List Char :=
  "parser.NewField(".toList ++ kindExpr p.kind ++ ", \x22".toList ++ htmlEscape p.name.toList ++
    "\x22, ".toList ++ (if p.variadic then "true" else "false").toList ++
    "),\n\t\t\t\t\t\t\t".toList

def renderEffect (e : Field) : List Char :=
  "parser.NewField(".toList ++ kindExpr e.kind ++ ", \x22".toList ++ htmlEscape e.name.toList ++
    "\x22, false),\n\t\t\t\t\t\t\t".toList

def renderFunc (f : ParsedFunc) : List Char :=
  '\x22' :: htmlEscape f.name.toList ++
    "\x22: FuncLookup\x7b\n\t\t\t\t\t\tParams:  []*parser.Field\x7b\n\t\t\t\t\t\t\t".toList ++
    f.params.flatMap renderParam ++
    "\n\t\t\t\t\t\t\x7d,\n\t\t\t\t\t\tEffects: []*parser.Field\x7b\n\t\t\t\t\t\t\t".toList ++
    f.effects.flatMap renderEffect ++ "\n\t\t\t\t\t\t\x7d,\n\t\t\t\t\t\x7d,\n\t\t\t\t\t".toList

def renderKind (e : Kind × List ParsedFunc) : List Char :=
  kindExpr e.1 ++ ": LookupByKind\x7b\n\t\t\t\tFunc: map[string]FuncLookup\x7b\n\t\t\t\t\t".toList ++
    e.2.flatMap renderFunc ++ "\n\t\t\t\t\x7d,\n\t\t\t\x7d,\n\t\t\t".toList

/-- The template up to the `Lookup` entries. -/
def renderHeader (command : List Char) : List Char :=
  "\n// Code generated by ".toList ++ htmlEscape command ++
    ("; DO NOT EDIT.\n\npackage builtin\n\nimport \x22github.com/openllb/hlb/parser\x22\n\n" ++
    "type BuiltinLookup struct \x7b\n\tByKind map[parser.Kind]LookupByKind\n\x7d\n\n" ++
    "type LookupByKind struct \x7b\n\t Func map[string]FuncLookup\n\x7d\n\n" ++
    "type FuncLookup struct \x7b\n\tParams []*parser.Field\n\tEffects []*parser.Field\n\x7d\n\n" ++
    "var (\n\tLookup = BuiltinLookup\x7b\n\t\tByKind: map[parser.Kind]LookupByKind\x7b\n\t\t\t").toList

/-- The text `referenceTmpl` writes for `Reference`. -/
def referenceLiteral (reference : List Char) : List Char := htmlEscape reference

/-- The template from the end of the `Lookup` entries. -/
def renderReference (reference : List Char) : List Char :=
  "\n\t\t\x7d,\n\t\x7d\n\n\tReference = ".toList ++ referenceLiteral reference ++ "\n)\n".toList

def render (d : BuiltinData) : List Char :=
  renderHeader d.command ++ d.funcsByKind.entries.flatMap renderKind ++
    renderReference d.reference

/-- `GenerateBuiltins`, for the command line `args` and the source text `r`. -/
def generateBuiltins (parse : List Char → Except Err (List Decl))
    (formatSource : List Char → Option (List Char)) (args : List String) (r : List Char) :
    Except Err (List Char) := do
  let decls ← parse r
  let data : BuiltinData :=
    ⟨("builtingen " ++ " ".intercalate args).toList, funcsByKind decls, '\x60' :: (r ++ ['\x60'])⟩
  let buf := render data
  pure ((formatSource buf).getD buf)

/-! ## `FuncsByKind` -/

/-- The functions declared with kind `k`, in the order of the declarations. -/
def funcsOf (decls : List Decl) (k : Kind) : List ParsedFunc :=
  decls.filterMap fun d => match d with
    | .func f => if f.kind = k then some f.parsed else none
    | .other => none

namespace FuncMap

theorem get_append (m : FuncMap) (k : Kind) (f : ParsedFunc) (k' : Kind) :
    (m.append k f).get k' = m.get k' ++ if k' = k then [f] else [] := by
  simp only [append]
  split_ifs with h
  · rw [h]
  · rw [List.append_nil]

theorem mem_keys_append (m : FuncMap) (k : Kind) (f : ParsedFunc) (k' : Kind) :
    k' ∈ (m.append k f).keys ↔ k' ∈ m.keys ∨ k' = k := by
  simp only [append]
  split_ifs with h
  · exact ⟨Or.inl, fun h' => h'.elim id (· ▸ h)⟩
  · simp

/-- The entries `range` visits: every key, once, with its value. -/
theorem mem_entries {m : FuncMap} {k : Kind} {fs : List ParsedFunc} :
    (k, fs) ∈ m.entries ↔ k ∈ m.keys ∧ fs = m.get k := by
  simp only [entries, List.mem_map, List.mem_mergeSort, Prod.mk.injEq]
  constructor
  · rintro ⟨_, hk, rfl, rfl⟩
    exact ⟨hk, rfl⟩
  · rintro ⟨hk, rfl⟩
    exact ⟨k, hk, rfl, rfl⟩

theorem nodup_entries (m : FuncMap) : (m.entries.map Prod.fst).Nodup := by
  simp only [entries, List.map_map, Function.comp_def, List.map_id']
  exact (List.mergeSort_perm _ _).nodup_iff.mpr m.nodup

end FuncMap

theorem funcsOf_append_func (decls : List Decl) (f : FuncDecl) (k : Kind) :
    funcsOf (decls ++ [.func f]) k = funcsOf decls k ++ if k = f.kind then [f.parsed] else [] := by
  simp only [funcsOf, List.filterMap_append, List.filterMap_cons, List.filterMap_nil]
  by_cases h : k = f.kind <;> simp [h, eq_comm]

/-- `FuncsByKind` holds under every kind the functions declared with it, and has a key for
every kind some function is declared with. -/
theorem funcsByKind_spec (decls : List Decl) :
    (∀ k, (funcsByKind decls).get k = funcsOf decls k) ∧
      ∀ k, k ∈ (funcsByKind decls).keys ↔ funcsOf decls k ≠ [] := by
  induction decls using List.reverseRecOn with
  | nil => exact ⟨fun _ => rfl, fun _ => by simp [funcsByKind, FuncMap.empty, funcsOf]⟩
  | append_singleton decls d ih =>
    cases d with
    | other =>
      simpa [funcsByKind, funcsOf, List.foldl_append] using ih
    | func f =>
      have hm : funcsByKind (decls ++ [.func f]) = (funcsByKind decls).append f.kind f.parsed := by
        simp [funcsByKind, List.foldl_append]
      refine ⟨fun k => ?_, fun k => ?_⟩
      · rw [hm, FuncMap.get_append, ih.1, funcsOf_append_func]
      · rw [hm, FuncMap.mem_keys_append, ih.2, funcsOf_append_func]
        by_cases h : k = f.kind <;> simp [h]

/-! ## The `Lookup` table -/

/-- `kind` writes distinct kinds as distinct keys. -/
theorem kindExpr_injective : Function.Injective kindExpr := by
  have hq : ∀ {s l : List Char}, l.head? ≠ some '\x22' → quote s ≠ l := fun hl h => hl (h ▸ rfl)
  intro a b h
  unfold kindExpr at h
  -- each side is one of the four `parser` constants or a quoted name
  split_ifs at h <;> first
    | (subst_vars; rfl)
    | exact absurd h (by decide)
    | exact (hq (by decide) h.symm).elim
    | exact (hq (by decide) h).elim
    | exact congrArg Kind.mk (String.toList_inj.mp (quote_injective h))

namespace FuncMap

/-- `range` visits the keys by increasing name. -/
theorem sorted_entries (m : FuncMap) : (m.entries.map Prod.fst).Pairwise (·.name ≤ ·.name) := by
  simp only [entries, List.map_map, Function.comp_def, List.map_id']
  refine (List.sorted_mergeSort (fun a b c hab hbc => ?_) (fun a b => ?_) _).imp fun h => ?_
  · simp only [Bool.not_eq_true', decide_eq_false_iff_not, not_lt] at hab hbc ⊢
    exact le_trans hab hbc
  · simpa only [Bool.or_eq_true, Bool.not_eq_true', decide_eq_false_iff_not, not_lt] using
      le_total a.name b.name
  · simpa only [Bool.not_eq_true', decide_eq_false_iff_not, not_lt] using h

theorem mem_entries_fst {m : FuncMap} {k : Kind} : k ∈ m.entries.map Prod.fst ↔ k ∈ m.keys := by
  simp [entries]

theorem flatMap_entries {α : Type} (m : FuncMap) (f : Kind × List ParsedFunc → List α) :
    m.entries.flatMap f = (m.entries.map Prod.fst).flatMap fun k => f (k, m.get k) := by
  simp only [entries, List.map_map, Function.comp_def, List.map_id', List.flatMap_map]

end FuncMap

/-- On a parsed module, `GenerateBuiltins` hands `format.Source` the template's text with the
`Lookup` table of the declarations: one entry for each declared kind, by increasing name, each
under its own key and holding the functions declared with it, in order, each with its
parameters and effects. -/
theorem generateBuiltins_lookup {parse : List Char → Except Err (List Decl)}
    {formatSource : List Char → Option (List Char)} {args : List String} {r : List Char}
    {decls : List Decl} (h : parse r = .ok decls) :
    ∃ kinds : List Kind, (kinds.map kindExpr).Nodup ∧ (∀ k, k ∈ kinds ↔ funcsOf decls k ≠ []) ∧
      kinds.Pairwise (·.name ≤ ·.name) ∧
      generateBuiltins parse formatSource args r =
        .ok (let buf := renderHeader ("builtingen " ++ " ".intercalate args).toList ++
            kinds.flatMap (fun k => renderKind (k, funcsOf decls k)) ++
            renderReference ('\x60' :: (r ++ ['\x60']))
          (formatSource buf).getD buf) := by
  have hget := (funcsByKind_spec decls).1
  refine ⟨(funcsByKind decls).entries.map Prod.fst,
    (FuncMap.nodup_entries _).map kindExpr_injective, fun k => ?_, FuncMap.sorted_entries _, ?_⟩
  · rw [FuncMap.mem_entries_fst, (funcsByKind_spec decls).2]
  · simp only [generateBuiltins, h, bind, Except.bind, pure, Except.pure, render,
      FuncMap.flatMap_entries, hget]

/-- The declarations `fs a()` and `string b(int n) binds (fs out)`. -/
def sampleDecls : List Decl :=
  [.func ⟨Kind.filesystem, "a", [], none⟩,
    .func ⟨Kind.string, "b", [⟨Kind.int, "n", false⟩], some [⟨Kind.filesystem, "out", false⟩]⟩]

theorem generateBuiltins_lookup_sample :
    (fun _ => .ok sampleDecls : List Char → Except Err (List Decl)) [] = .ok sampleDecls ∧
      ∃ kinds : List Kind, (kinds.map kindExpr).Nodup ∧
        (∀ k, k ∈ kinds ↔ funcsOf sampleDecls k ≠ []) ∧ kinds.Pairwise (·.name ≤ ·.name) ∧
        generateBuiltins (fun _ => .ok sampleDecls) (fun b => some b) [] [] =
          .ok (let buf := renderHeader ("builtingen " ++ " ".intercalate []).toList ++
              kinds.flatMap (fun k => renderKind (k, funcsOf sampleDecls k)) ++
              renderReference ('\x60' :: ([] ++ ['\x60']))
            ((fun b => some b) buf).getD buf) :=
  ⟨rfl, generateBuiltins_lookup rfl⟩

/-- Two declarations `fs a()`. -/
def duplicateDecls : List Decl :=
  [.func ⟨Kind.filesystem, "a", [], none⟩, .func ⟨Kind.filesystem, "a", [], none⟩]

/-- `GenerateBuiltins` returns the source, whose `Lookup` entry for `fs` holds the entry of `a`
twice. -/
theorem generateBuiltins_duplicate_name :
    generateBuiltins (fun _ => .ok duplicateDecls) (fun b => some b) [] "fs a()\nfs a()\n".toList =
      .ok (renderHeader "builtingen ".toList ++
        renderKind (Kind.filesystem, [⟨"a", [], []⟩, ⟨"a", [], []⟩]) ++
        renderReference ('\x60' :: ("fs a()\nfs a()\n".toList ++ ['\x60']))) ∧
      renderFunc ⟨"a", [], []⟩ ++ renderFunc ⟨"a", [], []⟩ <:+:
        renderKind (Kind.filesystem, [⟨"a", [], []⟩, ⟨"a", [], []⟩]) := by
  have he : (funcsByKind duplicateDecls).entries =
      [(Kind.filesystem, [⟨"a", [], []⟩, ⟨"a", [], []⟩])] := by
    rw [FuncMap.entries, show (funcsByKind duplicateDecls).keys = [Kind.filesystem] from rfl,
      List.mergeSort_singleton]
    rfl
  refine ⟨?_, ?_⟩
  · simp only [generateBuiltins, bind, Except.bind, pure, Except.pure, render, he,
      List.flatMap_singleton, Option.getD_some]
    rfl
  · simp only [renderKind, List.flatMap_cons, List.flatMap_nil, List.append_nil]
    exact List.infix_append _ _ _

/-! ## `Reference` -/

/-- What a source text needs for `Reference` to read back as itself. -/
def ReferenceSafe (r : List Char) : Prop :=
  ∀ c ∈ r, c ≠ '\x00' ∧ isEntityChar c = false ∧ c ≠ '\x60' ∧ c ≠ '\r'

theorem referenceLiteral_wrap (r : List Char) :
    referenceLiteral ('\x60' :: (r ++ ['\x60'])) = '\x60' :: (htmlEscape r ++ ['\x60']) := by
  have h : htmlEscapeChar '\x60' = ['\x60'] := by decide
  simp [referenceLiteral, h]

/-- `Reference` reads back as the source text exactly when the text has no character the
escaper replaces, no backtick and no carriage return. -/
theorem readRaw_referenceLiteral_iff (r : List Char) :
    readRaw (referenceLiteral ('\x60' :: (r ++ ['\x60']))) = some (r, []) ↔ ReferenceSafe r := by
  rw [referenceLiteral_wrap]
  constructor
  · intro h
    obtain ⟨hb, hv⟩ := readRaw_eq_some_nil h
    have hsemi := congrArg (List.count ';') hv
    rw [List.count_filter (by decide), count_semicolon_htmlEscape] at hsemi
    have hent : r.filter isEntityChar = [] := List.length_eq_zero.mp (by omega)
    intro c hc
    have hc' : c ∈ (htmlEscape r).filter (· ≠ '\r') := hv ▸ hc
    refine ⟨fun h0 => ?_, ?_, fun h1 => ?_, fun h2 => ?_⟩
    · exact nul_not_mem_htmlEscape r (h0 ▸ (List.mem_filter.mp hc').1)
    · simpa using List.filter_eq_nil_iff.mp hent c hc
    · exact hb ((mem_htmlEscape_iff (by decide) r).mpr (h1 ▸ hc))
    · simpa [h2] using (List.mem_filter.mp hc').2
  · intro h
    rw [htmlEscape_of_plain fun c hc => ⟨(h c hc).1, (h c hc).2.1⟩,
      readRaw_wrap fun hm => (h _ hm).2.2.1 rfl,
      List.filter_eq_self.mpr fun c hc => by simpa using (h c hc).2.2.2]

/-- The definition `string x() { "world"; }`. -/
def worldSource : List Char := "string x() \x7b \x22world\x22; \x7d".toList

/-- For `string x() { "world"; }`, whatever `format.Source` does, the source ends with the
declaration of `Reference`, whose raw literal reads `string x() { &#34;world&#34;; }`. -/
theorem generateBuiltins_escapes_reference (formatSource : List Char → Option (List Char))
    (args : List String) :
    ∃ buf, generateBuiltins (fun _ => .ok [.func ⟨Kind.string, "x", [], none⟩]) formatSource args
        worldSource = .ok ((formatSource buf).getD buf) ∧
      renderReference ('\x60' :: (worldSource ++ ['\x60'])) <:+ buf ∧
      readRaw (referenceLiteral ('\x60' :: (worldSource ++ ['\x60']))) =
        some ("string x() \x7b &#34;world&#34;; \x7d".toList, []) ∧
      "string x() \x7b &#34;world&#34;; \x7d".toList ≠ worldSource :=
  ⟨_, rfl, List.suffix_append _ _, rfl, by decide⟩

end Hlb.Builtin
