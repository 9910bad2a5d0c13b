/-
  Hlb.Go.Strings — the functions of Go's `strings`, `unicode` and `unicode/utf8` packages
  that the code generator calls.

  HLB source is UTF-8, so a Go string read from a source file is the UTF-8 encoding of a
  list of characters. Text is kept as `List Char`; `encode` turns it into the bytes of the
  Go string, and the model looks at bytes only where the code does (the value a string
  literal evaluates to, the size of a scanner token).
  - `isSpace` is `unicode.IsSpace`: the Latin-1 switch and the `White_Space` table.
  - `trimSpace`, `trimLeft`, `trimRight`, `trimSuffix`, `join` and `split` are the
    `strings` functions of those names, at the separators the code passes.
  - `encodeRune` is `string(r)` for a rune `r` (as `utf8.EncodeRune`): a value that is not a
    Unicode scalar value becomes U+FFFD.
  - `index` is the index expression `s[i]` on a slice or a string, with its run-time panic.
-/
import Mathlib.Data.List.DropRight
import Mathlib.Data.List.Basic
import Mathlib.Algebra.Group.Nat.Basic

namespace Hlb.Go

def isSpace (c : Char) : Bool :=
  (0x09 ≤ c.val && c.val ≤ 0x0D) || c.val = 0x20 || c.val = 0x85 || c.val = 0xA0 ||
    c.val = 0x1680 || (0x2000 ≤ c.val && c.val ≤ 0x200A) || c.val = 0x2028 ||
    c.val = 0x2029 || c.val = 0x202F || c.val = 0x205F || c.val = 0x3000

def trimSpace (s : List Char) : List Char := (s.dropWhile isSpace).rdropWhile isSpace

def trimLeft (s cutset : List Char) : List Char := s.dropWhile (cutset.contains ·)

def trimRight (s cutset : List Char) : List Char := s.rdropWhile (cutset.contains ·)

def trimSuffix (s suffix : List Char) : List Char :=
  if suffix.isSuffixOf s then s.take (s.length - suffix.length) else s

def join (elems : List (List Char)) (sep : List Char) : List Char := sep.intercalate elems

/-- `strings.Split(s, sep)` for a one-character separator. -/
def split (s : List Char) (sep : Char) : List (List Char) := s.splitOn sep

/-- `utf8.EncodeRune`, and `string(r)` for a rune `r ≥ 0`: bytes as numbers. A value past
`MaxRune` or a surrogate half is written as `RuneError` (U+FFFD). -/
def encodeRune (r : Nat) : List Nat :=
  if r ≤ 0x7F then [r]
  else if r ≤ 0x7FF then [0xC0 + r / 0x40, 0x80 + r % 0x40]
  else if 0x10FFFF < r ∨ (0xD800 ≤ r ∧ r ≤ 0xDFFF) then [0xEF, 0xBF, 0xBD]
  else if r ≤ 0xFFFF then [0xE0 + r / 0x1000, 0x80 + r / 0x40 % 0x40, 0x80 + r % 0x40]
  else [0xF0 + r / 0x40000, 0x80 + r / 0x1000 % 0x40, 0x80 + r / 0x40 % 0x40, 0x80 + r % 0x40]

/-- The bytes of a Go string holding `s`. -/
def encode (s : List Char) : List Nat := s.flatMap (encodeRune ·.toNat)

theorem char_le_iff_toNat {a b : Char} : a ≤ b ↔ a.toNat ≤ b.toNat := Iff.rfl

/-! ## Trimming -/

theorem dropWhile_of_forall_false {p : Char → Bool} {l : List Char} (h : ∀ c ∈ l, p c = false) :
    l.dropWhile p = l := by
  cases l with
  | nil => rfl
  | cons c l => simp [List.dropWhile, h c (List.mem_cons_self c l)]

theorem rdropWhile_of_forall_false {p : Char → Bool} {l : List Char} (h : ∀ c ∈ l, p c = false) :
    l.rdropWhile p = l := by
  rw [List.rdropWhile, dropWhile_of_forall_false (by simpa using h), List.reverse_reverse]

theorem trimSpace_of_forall {l : List Char} (h : ∀ c ∈ l, isSpace c = false) : trimSpace l = l := by
  rw [trimSpace, dropWhile_of_forall_false h, rdropWhile_of_forall_false h]

theorem trimLeft_of_forall {l cutset : List Char} (h : ∀ c ∈ l, c ∉ cutset) :
    trimLeft l cutset = l :=
  dropWhile_of_forall_false (by simpa using h)

theorem trimRight_of_forall {l cutset : List Char} (h : ∀ c ∈ l, c ∉ cutset) :
    trimRight l cutset = l :=
  rdropWhile_of_forall_false (by simpa using h)

theorem mem_of_mem_trimSpace {c : Char} {l : List Char} (h : c ∈ trimSpace l) : c ∈ l :=
  (List.dropWhile_suffix _).subset ((List.rdropWhile_prefix _ _).subset h)

/-- A trailing space does not change `trimSpace`. -/
theorem trimSpace_append_space (l : List Char) {c : Char} (hc : isSpace c = true) :
    trimSpace (l ++ [c]) = trimSpace l := by
  simp only [trimSpace, List.dropWhile_append]
  split
  · rename_i h
    rw [List.isEmpty_iff.mp h, List.dropWhile_cons_of_pos hc]
    simp
  · exact List.rdropWhile_concat_pos _ _ _ hc

/-- A trimmed text neither starts nor ends with a space. -/
theorem trimSpace_getLast_not_space {l : List Char} (h : trimSpace l ≠ []) :
    isSpace ((trimSpace l).getLast h) = false := by
  simpa using List.rdropWhile_last_not isSpace (l.dropWhile isSpace) h

/-! ## Joining and splitting -/

@[simp] theorem join_nil (sep : List Char) : join [] sep = [] := rfl

@[simp] theorem join_singleton (x sep : List Char) : join [x] sep = x := by
  simp [join, List.intercalate, List.intersperse]

theorem join_cons_cons (x y : List Char) (ys : List (List Char)) (sep : List Char) :
    join (x :: y :: ys) sep = x ++ sep ++ join (y :: ys) sep := by
  simp [join, List.intercalate, List.intersperse]

theorem join_append_singleton {xs : List (List Char)} (hxs : xs ≠ []) (y sep : List Char) :
    join (xs ++ [y]) sep = join xs sep ++ sep ++ y := by
  induction xs with
  | nil => exact absurd rfl hxs
  | cons x xs ih =>
    cases xs with
    | nil => simp [join_cons_cons]
    | cons x' xs =>
      rw [List.cons_append, List.cons_append, join_cons_cons, ← List.cons_append,
        ih (List.cons_ne_nil _ _), join_cons_cons]
      simp

/-- The last piece `Split` cuts is empty only when the text is empty or ends at a separator. -/
theorem split_getLast_ne_nil {s : List Char} {a : Char} (hs : s.getLast? ≠ some a) (hne : s ≠ []) :
    (split s a).getLast? ≠ some [] := by
  intro h
  obtain ⟨ps, hps⟩ := List.getLast?_eq_some_iff.mp h
  have hj := List.intercalate_splitOn s a
  rw [← split, hps] at hj
  rcases ps with _ | ⟨p, ps⟩
  · exact hne (by simpa using hj.symm)
  · rw [← join, join_append_singleton (List.cons_ne_nil _ _)] at hj
    exact hs (by rw [← hj]; simp)

theorem split_of_not_mem {s : List Char} {a : Char} (h : a ∉ s) : split s a = [s] :=
  List.splitOnP_eq_single _ _ fun x hx e => h (by rw [beq_iff_eq] at e; exact e ▸ hx)

/-- No piece `Split` cuts holds the separator. -/
theorem not_mem_of_mem_split {a : Char} {s p : List Char} (hp : p ∈ split s a) : a ∉ p := by
  induction s generalizing p with
  | nil =>
    rw [List.mem_singleton.1 hp]
    exact List.not_mem_nil a
  | cons x s ih =>
    rw [split, List.splitOn, List.splitOnP_cons] at hp
    split at hp
    · rcases List.mem_cons.1 hp with rfl | hp
      exacts [List.not_mem_nil a, ih hp]
    · rename_i hx
      obtain ⟨q, ps, hs⟩ := List.exists_cons_of_ne_nil (List.splitOnP_ne_nil (· == a) s)
      have hq : q ∈ split s a := by rw [split, List.splitOn, hs]; exact List.mem_cons_self q ps
      rw [hs, List.modifyHead_cons] at hp
      rcases List.mem_cons.1 hp with rfl | hp
      · rw [List.mem_cons, not_or]
        exact ⟨fun h => hx (by rw [h, beq_self_eq_true]), ih hq⟩
      · exact ih (by rw [split, List.splitOn, hs]; exact List.mem_cons_of_mem q hp)

theorem not_mem_join {c : Char} {sep : List Char} (hsep : c ∉ sep) :
    ∀ {parts : List (List Char)}, (∀ p ∈ parts, c ∉ p) → c ∉ join parts sep
  | [], _ => List.not_mem_nil c
  | [p], h => by
    rw [join_singleton]
    exact h p (List.mem_singleton_self p)
  | p :: q :: ps, h => by
    rw [join_cons_cons, List.mem_append, List.mem_append, not_or, not_or]
    exact ⟨⟨h p (List.mem_cons_self p _), hsep⟩,
      not_mem_join hsep fun r hr => h r (List.mem_cons_of_mem p hr)⟩

/-! ## Bytes -/

@[simp] theorem encode_nil : encode [] = [] := rfl

@[simp] theorem encode_cons (c : Char) (s : List Char) :
    encode (c :: s) = encodeRune c.toNat ++ encode s := rfl

@[simp] theorem encode_append (s t : List Char) : encode (s ++ t) = encode s ++ encode t := by
  simp [encode]

theorem length_encode_of_ascii {s : List Char} (h : ∀ c ∈ s, c.toNat < 0x80) :
    (encode s).length = s.length := by
  induction s with
  | nil => rfl
  | cons c s ih =>
    rw [List.forall_mem_cons] at h
    simp [encodeRune, show c.toNat ≤ 0x7F by omega, ih h.2]

theorem encodeRune_of_lt {r : Nat} (h : r < 0x80) : encodeRune r = [r] := by
  simp [encodeRune, show r ≤ 0x7F by omega]

/-- A rune of `0x80 ..= 0x7FF` takes two bytes. -/
theorem length_encodeRune_two {r : Nat} (h₁ : 0x80 ≤ r) (h₂ : r ≤ 0x7FF) :
    (encodeRune r).length = 2 := by
  simp [encodeRune, show ¬ r ≤ 0x7F by omega, h₂]

theorem one_le_length_encodeRune (r : Nat) : 1 ≤ (encodeRune r).length := by
  unfold encodeRune; split_ifs <;> simp

/-! ## Indexing -/

/-- `s[i]`: the element, or the message of the run-time panic. -/
def index {β : Type} (s : List β) : Int → Except String β
  | .ofNat n =>
    match s[n]? with
    | some x => .ok x
    | none => .error ("runtime error: index out of range [" ++ toString n ++ "] with length " ++
      toString s.length)
  | i@(.negSucc _) => .error ("runtime error: index out of range [" ++ toString i ++ "]")

@[simp] theorem index_of_lt {β : Type} {s : List β} {n : Nat} (h : n < s.length) :
    index s n = .ok s[n] := by
  simp [index, h]

end Hlb.Go
