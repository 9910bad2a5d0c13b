/-
  Hlb.Go.Template — what `html/template` writes for a string value in HTML text, what
  `strconv.Quote` makes of a kind's name, and how Go reads a raw string literal.

  The builtin generator's template is Go source, but it is an `html/template`: with no tag
  in it, every action stands in HTML text, and a value that is not `template.HTML` goes
  through the text escaper, which writes NUL as U+FFFD and `"`, `&`, `'`, `+`, `<`, `>` as
  entities. A raw string literal runs from a backtick to the next one, and its value drops
  every carriage return.

  Proved:
  - `count_semicolon_htmlEscape`: escaping adds one `;` for each character it writes as an
    entity; `nul_not_mem_htmlEscape`, `mem_htmlEscape_iff`: it leaves no NUL and keeps
    every other character that is not escaped.
  - `quote_injective`: distinct names quote to distinct literals.
  - `readRaw_wrap`, `readRaw_eq_some_nil`: a text between two backticks reads back, carriage
    returns dropped, exactly when it has no backtick.
-/
import Mathlib.Data.List.Basic

namespace Hlb.Go

/-- The characters the escaper writes as an entity. -/
def isEntityChar (c : Char) : Bool :=
  c = '\x22' || c = '&' || c = '\x27' || c = '+' || c = '<' || c = '>'

def htmlEscapeChar (c : Char) : List Char :=
  if c = '\x00' then ['�']
  else if c = '\x22' then "&#34;".toList
  else if c = '&' then "&amp;".toList
  else if c = '\x27' then "&#39;".toList
  else if c = '+' then "&#43;".toList
  else if c = '<' then "&lt;".toList
  else if c = '>' then "&gt;".toList
  else [c]

def htmlEscape (s : List Char) : List Char := s.flatMap htmlEscapeChar

/-- `strconv.Quote` on the printable text a kind's name is made of. -/
def quote (s : List Char) : List Char :=
  '\x22' :: s.flatMap (fun c => if c = '\x22' ∨ c = '\\' then ['\\', c] else [c]) ++ ['\x22']

/-- A raw string literal at the start of the text: its value and the text after it. -/
def readRaw : List Char → Option (List Char × List Char)
  | '\x60' :: t =>
    match t.span (· ≠ '\x60') with
    | (body, '\x60' :: rest) => some (body.filter (· ≠ '\r'), rest)
    | _ => none
  | _ => none

/-! ## Escaping -/

@[simp] theorem htmlEscape_nil : htmlEscape [] = [] := rfl

@[simp] theorem htmlEscape_cons (c : Char) (s : List Char) :
    htmlEscape (c :: s) = htmlEscapeChar c ++ htmlEscape s := rfl

@[simp] theorem htmlEscape_append (s t : List Char) :
    htmlEscape (s ++ t) = htmlEscape s ++ htmlEscape t := List.flatMap_append ..

theorem htmlEscapeChar_of_plain {c : Char} (h0 : c ≠ '\x00') (he : isEntityChar c = false) :
    htmlEscapeChar c = [c] := by
  simp only [isEntityChar, Bool.or_eq_false_iff, decide_eq_false_iff_not] at he
  simp only [htmlEscapeChar, h0, he, if_false]

theorem htmlEscape_of_plain {s : List Char} (h : ∀ c ∈ s, c ≠ '\x00' ∧ isEntityChar c = false) :
    htmlEscape s = s := by
  induction s with
  | nil => rfl
  | cons c s ih =>
    rw [List.forall_mem_cons] at h
    rw [htmlEscape_cons, htmlEscapeChar_of_plain h.1.1 h.1.2, ih h.2, List.singleton_append]

/-- The escaper keeps a character, or the character is one it replaces. -/
theorem htmlEscapeChar_cases (c : Char) :
    (htmlEscapeChar c = [c] ∧ c ≠ '\x00' ∧ isEntityChar c = false) ∨
      c ∈ ['\x00', '\x22', '&', '\x27', '+', '<', '>'] := by
  by_cases h0 : c = '\x00'
  · exact .inr (h0 ▸ List.mem_cons_self _ _)
  cases he : isEntityChar c
  · exact .inl ⟨htmlEscapeChar_of_plain h0 he, h0, rfl⟩
  · right
    simp only [isEntityChar, Bool.or_eq_true, decide_eq_true_eq, or_assoc] at he
    simp only [List.mem_cons, List.not_mem_nil, or_false]
    exact Or.inr he

theorem count_semicolon_htmlEscapeChar (c : Char) :
    (htmlEscapeChar c).count ';' = [c].count ';' + if isEntityChar c then 1 else 0 := by
  rcases htmlEscapeChar_cases c with ⟨h, -, he⟩ | hc
  · rw [h, he, if_neg Bool.false_ne_true, Nat.add_zero]
  · simp only [List.mem_cons, List.mem_singleton, List.not_mem_nil, or_false] at hc
    rcases hc with rfl | rfl | rfl | rfl | rfl | rfl | rfl <;> decide

theorem count_semicolon_htmlEscape (s : List Char) :
    (htmlEscape s).count ';' = s.count ';' + (s.filter isEntityChar).length := by
  induction s with
  | nil => rfl
  | cons c s ih =>
    rw [htmlEscape_cons, List.count_append, count_semicolon_htmlEscapeChar, ih]
    simp only [List.count_cons, List.count_nil, List.filter_cons]
    cases isEntityChar c <;> simp <;> omega

theorem nul_not_mem_htmlEscape (s : List Char) : '\x00' ∉ htmlEscape s := by
  induction s with
  | nil => exact List.not_mem_nil _
  | cons c s ih =>
    rw [htmlEscape_cons, List.mem_append, not_or]
    refine ⟨?_, ih⟩
    rcases htmlEscapeChar_cases c with ⟨h, h0, -⟩ | hc
    · rw [h, List.mem_singleton]; exact Ne.symm h0
    · simp only [List.mem_cons, List.mem_singleton, List.not_mem_nil, or_false] at hc
      rcases hc with rfl | rfl | rfl | rfl | rfl | rfl | rfl <;> decide

/-- A character that is never escaped nor written by an escape is in the escaped text
exactly when it is in the text. -/
theorem mem_htmlEscape_iff {a : Char} (ha : a ∉ "\x00\x22&\x27+<>�#349;amplgt".toList)
    (s : List Char) : a ∈ htmlEscape s ↔ a ∈ s := by
  induction s with
  | nil => simp
  | cons c s ih =>
    rw [htmlEscape_cons, List.mem_append, ih, List.mem_cons]
    refine or_congr_left ?_
    rcases htmlEscapeChar_cases c with ⟨h, -, -⟩ | hc
    · rw [h, List.mem_singleton]
    · simp only [List.mem_cons, List.mem_singleton, List.not_mem_nil, or_false] at hc
      rcases hc with rfl | rfl | rfl | rfl | rfl | rfl | rfl <;>
        exact ⟨fun h => absurd (List.subset_def.mp (by decide) h) ha,
          fun h => absurd (h ▸ by decide) ha⟩

/-! ## Quoting -/

/-- The backslash `strconv.Quote` puts before a quote or a backslash keeps the characters
apart. -/
theorem quoteBody_injective : ∀ {s t : List Char},
    s.flatMap (fun c => if c = '\x22' ∨ c = '\\' then ['\\', c] else [c]) =
      t.flatMap (fun c => if c = '\x22' ∨ c = '\\' then ['\\', c] else [c]) → s = t
  | [], [], _ => rfl
  | [], b :: t, h => by
    rw [List.flatMap_cons] at h
    split_ifs at h <;> simp at h
  | a :: s, [], h => by
    rw [List.flatMap_cons] at h
    split_ifs at h <;> simp at h
  | a :: s, b :: t, h => by
    simp only [List.flatMap_cons] at h
    split_ifs at h with ha hb hb <;>
      simp only [List.cons_append, List.nil_append, List.cons.injEq] at h
    · rw [h.2.1, quoteBody_injective h.2.2]
    · exact absurd (.inr h.1.symm) hb
    · exact absurd (.inr h.1) ha
    · rw [h.1, quoteBody_injective h.2]

theorem quote_injective : Function.Injective quote := fun _ _ h =>
  quoteBody_injective (List.append_cancel_right (List.cons.inj h).2)

/-! ## Raw string literals -/

theorem readRaw_wrap {s : List Char} (h : '\x60' ∉ s) :
    readRaw ('\x60' :: (s ++ ['\x60'])) = some (s.filter (· ≠ '\r'), []) := by
  have hp : ∀ c ∈ s, decide (c ≠ '\x60') = true := fun c hc => by
    simpa using fun (he : c = '\x60') => h (he ▸ hc)
  simp only [readRaw]
  rw [List.span_eq_take_drop, List.takeWhile_append_of_pos hp, List.dropWhile_append_of_pos hp]
  simp

theorem readRaw_eq_some_nil {s v : List Char}
    (h : readRaw ('\x60' :: (s ++ ['\x60'])) = some (v, [])) :
    '\x60' ∉ s ∧ v = s.filter (· ≠ '\r') := by
  simp only [readRaw, List.span_eq_take_drop] at h
  split at h
  · rename_i body rest hsp
    simp only [Option.some.injEq, Prod.mk.injEq] at h hsp
    obtain ⟨rfl, rfl⟩ := h
    have hall := List.takeWhile_append_dropWhile (· ≠ '\x60') (s ++ ['\x60'])
    rw [hsp.1, hsp.2] at hall
    obtain rfl : body = s := List.append_cancel_right hall
    exact ⟨fun hm => absurd (List.mem_takeWhile_imp (hsp.1 ▸ hm)) (by decide), rfl⟩
  · cases h

end Hlb.Go
