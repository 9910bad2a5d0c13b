/-
  Hlb.Go.Strconv — `strconv.UnquoteChar`, and `strconv.Unquote` of a double-quoted
  literal, over source text and to bytes.

  The library reads bytes. On UTF-8 input the first byte of a character decides every
  branch: an ASCII byte is the character itself, a byte from `0x80` starts a multibyte
  character that `UnquoteChar` decodes whole, and hex and octal digits are ASCII. So reading
  the text a character at a time takes the branches the library takes. `UnquoteChar`
  answers the value, whether it is a code point to encode (`multibyte`) or one byte, and the
  rest of the input; `Unquote` appends `byte(value)` for a value below `0x80` or one that is
  not multibyte, and the value's UTF-8 encoding otherwise.

  Proved:
  - `unquoteChar_append`: a successful `UnquoteChar` reads the same on every extension of
    its input (how much it reads is decided by the first characters).
  - `unquoteChars_append_unit` / `unquoteChars_append_plain`: `Unquote`'s loop over a
    complete unit, or over text with no quote and no backslash, followed by more input, is
    that part's bytes followed by the loop over the rest.
-/
import Hlb.Go.Strings

namespace Hlb.Go

/-- What `UnquoteChar` returns besides its error. -/
structure Unquoted where
  value : Nat
  multibyte : Bool
  tail : List Char
  deriving DecidableEq, Repr

def unhex (c : Char) : Option Nat :=
  if '0' ≤ c ∧ c ≤ '9' then some (c.toNat - '0'.toNat)
  else if 'a' ≤ c ∧ c ≤ 'f' then some (c.toNat - 'a'.toNat + 10)
  else if 'A' ≤ c ∧ c ≤ 'F' then some (c.toNat - 'A'.toNat + 10)
  else none

def hexValue : Nat → List Char → Option Nat
  | v, [] => some v
  | v, d :: ds => (unhex d).bind fun x => hexValue (v * 16 + x) ds

def octValue : Nat → List Char → Option Nat
  | v, [] => some v
  | v, d :: ds => if '0' ≤ d ∧ d ≤ '7' then octValue (v * 8 + (d.toNat - '0'.toNat)) ds else none

/-- `\x`, `\u`, `\U`: `n` hex digits. A `\x` value is one byte; a `\u` or `\U` value must be
a valid rune and is multibyte. -/
def hexEscape (n : Nat) (multibyte : Bool) (s : List Char) : Except Unit Unquoted :=
  if s.length < n then .error ()
  else match hexValue 0 (s.take n) with
    | none => .error ()
    | some v => if multibyte ∧ ¬ v.isValidChar then .error () else .ok ⟨v, multibyte, s.drop n⟩

/-- `\NNN`: the first digit `e` and two more, at most 255. -/
def octEscape (e : Char) (s : List Char) : Except Unit Unquoted :=
  if s.length < 2 then .error ()
  else match octValue (e.toNat - '0'.toNat) (s.take 2) with
    | none => .error ()
    | some v => if 255 < v then .error () else .ok ⟨v, false, s.drop 2⟩

/-- The escape `\e` followed by `s`. -/
def unquoteEscape (quote e : Char) (s : List Char) : Except Unit Unquoted :=
  match e with
  | 'a' => .ok ⟨7, false, s⟩
  | 'b' => .ok ⟨8, false, s⟩
  | 'f' => .ok ⟨12, false, s⟩
  | 'n' => .ok ⟨10, false, s⟩
  | 'r' => .ok ⟨13, false, s⟩
  | 't' => .ok ⟨9, false, s⟩
  | 'v' => .ok ⟨11, false, s⟩
  | 'x' => hexEscape 2 false s
  | 'u' => hexEscape 4 true s
  | 'U' => hexEscape 8 true s
  | '\\' => .ok ⟨92, false, s⟩
  | '\'' | '"' => if e = quote then .ok ⟨e.toNat, false, s⟩ else .error ()
  | _ => if '0' ≤ e ∧ e ≤ '7' then octEscape e s else .error ()

def unquoteChar (s : List Char) (quote : Char) : Except Unit Unquoted :=
  match s with
  | [] => .error ()
  | c :: rest =>
    if c = quote ∧ (quote = '\'' ∨ quote = '"') then .error ()
    else if 0x80 ≤ c.toNat then .ok ⟨c.toNat, true, rest⟩
    else if c ≠ '\\' then .ok ⟨c.toNat, false, rest⟩
    else match rest with
      | [] => .error ()
      | e :: s => unquoteEscape quote e s

/-- What `Unquote` appends for one `UnquoteChar`. -/
def unquotedBytes (u : Unquoted) : List Nat :=
  if u.value < 0x80 ∨ !u.multibyte then [u.value % 256] else encodeRune u.value

/-- `Unquote`'s loop over the body of a double-quoted literal; `fuel` bounds its rounds. -/
def unquoteLoop : Nat → List Char → Except Unit (List Nat)
  | _, [] => .ok []
  | 0, _ :: _ => .error ()
  | fuel + 1, s@(_ :: _) => do
    let u ← unquoteChar s '"'
    let rest ← unquoteLoop fuel u.tail
    pure (unquotedBytes u ++ rest)

/-- The loop with a round for every character, enough for every input. -/
def unquoteChars (s : List Char) : Except Unit (List Nat) := unquoteLoop s.length s

/-- `strconv.Unquote` of the literal `"body"`: a newline is refused, a body with no
backslash and no quote is returned as it is (it is valid UTF-8), and any other is read by
`UnquoteChar`. -/
def unquote (body : List Char) : Except Unit (List Nat) :=
  if '\n' ∈ body then .error ()
  else if '\\' ∉ body ∧ '"' ∉ body then .ok (encode body)
  else unquoteChars body

/-! ## Values and digits -/

theorem unhex_lt {d : Char} {x : Nat} (h : unhex d = some x) : x < 16 := by
  unfold unhex at h
  split_ifs at h with h1 h2 h3 <;> cases h
  all_goals simp only [char_le_iff_toNat] at *; simp at *; omega

theorem hexValue_lt {v w : Nat} {ds : List Char} (h : hexValue v ds = some w) :
    w < (v + 1) * 16 ^ ds.length := by
  induction ds generalizing v with
  | nil => cases h; simp
  | cons d ds ih =>
    simp only [hexValue, Option.bind_eq_some] at h
    obtain ⟨x, hx, hw⟩ := h
    have := ih hw
    have := unhex_lt hx
    calc w < (v * 16 + x + 1) * 16 ^ ds.length := ih hw
      _ ≤ (v + 1) * 16 * 16 ^ ds.length := Nat.mul_le_mul_right _ (by omega)
      _ = (v + 1) * 16 ^ (d :: ds).length := by rw [List.length_cons, Nat.pow_succ]; ac_rfl

theorem hexValue_mem {v w : Nat} {ds : List Char} (h : hexValue v ds = some w) :
    ∀ d ∈ ds, unhex d ≠ none := by
  induction ds generalizing v with
  | nil => simp
  | cons d ds ih =>
    simp only [hexValue, Option.bind_eq_some] at h
    obtain ⟨x, hx, hw⟩ := h
    exact List.forall_mem_cons.mpr ⟨by simp [hx], ih hw⟩

theorem octValue_mem {v w : Nat} {ds : List Char} (h : octValue v ds = some w) :
    ∀ d ∈ ds, '0' ≤ d ∧ d ≤ '7' := by
  induction ds generalizing v with
  | nil => simp
  | cons d ds ih =>
    simp only [octValue] at h
    split_ifs at h with hd
    exact List.forall_mem_cons.mpr ⟨hd, ih h⟩

/-! ## `UnquoteChar` -/

/-- `f` read the first `k` characters of `s` to give `u`, and reads the same on `s ++ t`. -/
def ReadsPrefix (f : List Char → Except Unit Unquoted) (s : List Char) (k : Nat) (u : Unquoted) :
    Prop :=
  k ≤ s.length ∧ u.tail = s.drop k ∧ ∀ t, f (s ++ t) = .ok { u with tail := u.tail ++ t }

theorem hexEscape_reads {n : Nat} {mb : Bool} {s : List Char} {u : Unquoted}
    (h : hexEscape n mb s = .ok u) : ReadsPrefix (hexEscape n mb) s n u := by
  have hl : n ≤ s.length := by
    by_contra hn
    simp [hexEscape, show s.length < n by omega] at h
  have hn (t : List Char) : ¬ (s ++ t).length < n := by simp; omega
  have hn' : ¬ s.length < n := by omega
  rcases hv : hexValue 0 (s.take n) with _ | v
  · simp [hexEscape, hn', hv] at h
  · by_cases hc : mb = true ∧ ¬ v.isValidChar
    · simp [hexEscape, hn', hv, hc] at h
    · simp only [hexEscape, hn', if_false, hv, hc] at h
      cases h
      refine ⟨hl, rfl, fun t => ?_⟩
      simp only [hexEscape, hn t, if_false, List.take_append_of_le_length hl, hv, hc,
        List.drop_append_of_le_length hl]

theorem octEscape_reads {e : Char} {s : List Char} {u : Unquoted}
    (h : octEscape e s = .ok u) : ReadsPrefix (octEscape e) s 2 u := by
  have hl : 2 ≤ s.length := by
    by_contra hn
    simp [octEscape, show s.length < 2 by omega] at h
  have hn (t : List Char) : ¬ (s ++ t).length < 2 := by simp; omega
  have hn' : ¬ s.length < 2 := by omega
  rcases hv : octValue (e.toNat - '0'.toNat) (s.take 2) with _ | v
  · simp only [octEscape, hn', if_false, hv, reduceCtorEq] at h
  · by_cases hc : 255 < v
    · simp only [octEscape, hn', if_false, hv, hc, if_true, reduceCtorEq] at h
    · simp only [octEscape, hn', if_false, hv, hc] at h
      cases h
      refine ⟨hl, rfl, fun t => ?_⟩
      simp only [octEscape, hn t, if_false, List.take_append_of_le_length hl, hv, hc,
        List.drop_append_of_le_length hl]

theorem unquoteEscape_digit (q : Char) {e : Char} (s : List Char) (h : '0' ≤ e ∧ e ≤ '7') :
    unquoteEscape q e s = octEscape e s := by
  unfold unquoteEscape
  split
  any_goals (exfalso; revert h; decide)
  simp only [h, and_self, if_true]

theorem hexEscape_newline {n : Nat} {mb : Bool} {s : List Char} {u : Unquoted}
    (h : hexEscape n mb s = .ok u) : '\n' ∉ s.take n := by
  intro hm
  unfold hexEscape at h
  split at h
  · cases h
  · split at h
    · cases h
    · rename_i hv
      exact hexValue_mem hv _ hm rfl

theorem octEscape_newline {e : Char} {s : List Char} {u : Unquoted}
    (h : octEscape e s = .ok u) : '\n' ∉ s.take 2 := by
  intro hm
  unfold octEscape at h
  split at h
  · cases h
  · split at h
    · cases h
    · rename_i hv
      exact absurd (octValue_mem hv _ hm) (by decide)

theorem unquoteEscape_reads {q e : Char} {s : List Char} {u : Unquoted}
    (h : unquoteEscape q e s = .ok u) :
    ∃ k, ReadsPrefix (unquoteEscape q e) s k u ∧ '\n' ∉ s.take k := by
  unfold unquoteEscape at h
  split at h
  any_goals (cases h; exact ⟨0, ⟨Nat.zero_le _, rfl, fun _ => rfl⟩, by simp⟩)
  any_goals exact ⟨_, hexEscape_reads h, hexEscape_newline h⟩
  case h_12 | h_13 =>
    split at h
    · cases h
      exact ⟨0, ⟨Nat.zero_le _, rfl, fun _ => if_pos ‹_›⟩, by simp⟩
    · cases h
  case h_14 =>
    split at h
    · obtain ⟨hl, ht, ha⟩ := octEscape_reads h
      exact ⟨2, ⟨hl, ht, fun t => (unquoteEscape_digit q _ ‹_›).trans (ha t)⟩, octEscape_newline h⟩
    · cases h

theorem unquoteEscape_newline (q : Char) (s : List Char) : unquoteEscape q '\n' s = .error () := rfl

theorem unquoteChar_reads {s : List Char} {q : Char} {u : Unquoted} (h : unquoteChar s q = .ok u) :
    ∃ k, 0 < k ∧ ReadsPrefix (unquoteChar · q) s k u := by
  match s, h with
  | c :: rest, h =>
    simp only [unquoteChar] at h
    split_ifs at h with h1 h2 h3
    · cases h
      exact ⟨1, Nat.one_pos, by simp, by simp, fun t => by simp [unquoteChar, h1, h2]⟩
    · cases h
      exact ⟨1, Nat.one_pos, by simp, by simp, fun t => by simp [unquoteChar, h1, h2, h3]⟩
    · match rest, h with
      | e :: s, h =>
        obtain ⟨k, ⟨hl, ht, ha⟩, -⟩ := unquoteEscape_reads h
        refine ⟨k + 2, by omega, by simp; omega, by simp [ht], fun t => ?_⟩
        simp only [List.cons_append, unquoteChar, h1, h2, h3, if_false, not_false_eq_true]
        exact ha t

/-- Reading `s ++ t` reads `s` as before, with `t` left behind. -/
theorem unquoteChar_append {s : List Char} {q : Char} {u : Unquoted} (h : unquoteChar s q = .ok u)
    (t : List Char) : unquoteChar (s ++ t) q = .ok { u with tail := u.tail ++ t } := by
  obtain ⟨k, -, -, -, ha⟩ := unquoteChar_reads h
  exact ha t

theorem unquoteChar_tail_lt {s : List Char} {q : Char} {u : Unquoted} (h : unquoteChar s q = .ok u) :
    u.tail.length < s.length := by
  obtain ⟨k, hk, hl, ht, -⟩ := unquoteChar_reads h
  rw [ht, List.length_drop]
  have : s ≠ [] := by rintro rfl; cases h
  have := List.length_pos.mpr this
  omega

/-! ## `Unquote`'s loop -/

@[simp] theorem unquoteLoop_nil (n : Nat) : unquoteLoop n [] = .ok [] := by cases n <;> rfl

theorem unquoteLoop_fuel {n m : Nat} {s : List Char} (hn : s.length ≤ n) (hm : s.length ≤ m) :
    unquoteLoop n s = unquoteLoop m s := by
  induction n generalizing s m with
  | zero => rw [List.length_eq_zero.mp (Nat.le_zero.mp hn)]; simp
  | succ n ih =>
    match s, m, hm with
    | [], _, _ => simp
    | c :: r, m + 1, hm =>
      simp only [unquoteLoop]
      rcases hu : unquoteChar (c :: r) '"' with e | u
      · rfl
      · have := unquoteChar_tail_lt hu
        simp only [List.length_cons] at this hn hm
        simp only [bind, Except.bind, ih (s := u.tail) (m := m) (by omega) (by omega)]

theorem unquoteChars_nil : unquoteChars [] = .ok [] := rfl

/-- One round of the loop. -/
theorem unquoteChars_of_unquoteChar {s : List Char} {u : Unquoted} (h : unquoteChar s '"' = .ok u) :
    unquoteChars s = (unquoteChars u.tail).map (unquotedBytes u ++ ·) := by
  match s, h with
  | c :: r, h =>
    have := unquoteChar_tail_lt h
    simp only [List.length_cons] at this
    simp only [unquoteChars, List.length_cons, unquoteLoop, h, bind, Except.bind,
      unquoteLoop_fuel (n := r.length) (m := u.tail.length) (by omega) le_rfl]
    cases unquoteLoop u.tail.length u.tail <;> rfl

theorem unquoteChars_append_unit {e : List Char} {u : Unquoted} (h : unquoteChar e '"' = .ok u)
    (hu : u.tail = []) (t : List Char) :
    unquoteChars (e ++ t) = (unquoteChars t).map (unquotedBytes u ++ ·) := by
  rw [unquoteChars_of_unquoteChar (unquoteChar_append h t), hu]
  rfl

theorem unquoteChar_plain {c : Char} (hq : c ≠ '"') (hb : c ≠ '\\') (t : List Char) :
    unquoteChar (c :: t) '"' = .ok ⟨c.toNat, decide (0x80 ≤ c.toNat), t⟩ := by
  by_cases h : 0x80 ≤ c.toNat <;> simp [unquoteChar, hq, hb, h]

theorem unquotedBytes_plain (c : Char) (t : List Char) :
    unquotedBytes ⟨c.toNat, decide (0x80 ≤ c.toNat), t⟩ = encodeRune c.toNat := by
  by_cases h : c.toNat < 0x80
  · simp [unquotedBytes, h, encodeRune_of_lt h, Nat.mod_eq_of_lt (by omega : c.toNat < 256)]
  · simp [unquotedBytes, h, show 0x80 ≤ c.toNat by omega]

/-- Text with no quote and no backslash reads as its own bytes. -/
theorem unquoteChars_append_plain {s : List Char} (hs : ∀ c ∈ s, c ≠ '"' ∧ c ≠ '\\')
    (t : List Char) : unquoteChars (s ++ t) = (unquoteChars t).map (encode s ++ ·) := by
  induction s with
  | nil => simp only [List.nil_append]; cases unquoteChars t <;> rfl
  | cons c s ih =>
    obtain ⟨hq, hb⟩ := hs c (List.mem_cons_self c s)
    rw [List.cons_append, unquoteChars_of_unquoteChar (unquoteChar_plain hq hb _),
      ih fun d hd => hs d (List.mem_cons_of_mem c hd), unquotedBytes_plain]
    cases unquoteChars t <;> simp [Except.map]

theorem unquote_eq_unquoteChars {body : List Char} (hn : '\n' ∉ body) :
    unquote body = unquoteChars body := by
  unfold unquote
  rw [if_neg hn]
  split
  · rename_i h
    have := unquoteChars_append_plain (s := body) (fun c hc => ⟨fun e => h.2 (e ▸ hc),
      fun e => h.1 (e ▸ hc)⟩) []
    rw [List.append_nil, unquoteChars_nil] at this
    simpa [Except.map] using this.symm
  · rfl

theorem unquoteChar_backslash (c : Char) (r : List Char) :
    unquoteChar ('\\' :: c :: r) '"' = unquoteEscape '"' c r := rfl

/-- An escape of one character after the backslash reads nothing more, and is ASCII. -/
theorem unquoteEscape_nil {c : Char} {u : Unquoted} (h : unquoteEscape '"' c [] = .ok u) :
    u.value < 0x80 ∧ u.tail = [] := by
  unfold unquoteEscape at h
  split at h
  any_goals (cases h; exact ⟨by decide, rfl⟩)
  any_goals simp [hexEscape] at h
  split at h
  · simp [octEscape] at h
  · cases h

theorem unquotedBytes_of_lt {u : Unquoted} (h : u.value < 0x80) :
    unquotedBytes u = encodeRune u.value := by
  rw [unquotedBytes, if_pos (.inl h), encodeRune_of_lt h, Nat.mod_eq_of_lt (by omega)]

/-- A complete escape sequence holds no newline. -/
theorem escape_newline_not_mem {c : Char} {r : List Char} {u : Unquoted}
    (h : unquoteChar ('\\' :: c :: r) '"' = .ok u) (ht : u.tail = []) : '\n' ∉ '\\' :: c :: r := by
  rw [unquoteChar_backslash] at h
  obtain ⟨k, ⟨-, hd, -⟩, hn⟩ := unquoteEscape_reads h
  have hc : c ≠ '\n' := by rintro rfl; rw [unquoteEscape_newline] at h; cases h
  rw [ht, eq_comm, List.drop_eq_nil_iff] at hd
  rw [List.take_of_length_le hd] at hn
  simp [Ne.symm hc, hn]

theorem hexEscape_value {n : Nat} {mb : Bool} {s : List Char} {u : Unquoted}
    (h : hexEscape n mb s = .ok u) : u.multibyte = mb ∧ u.value < 16 ^ n := by
  unfold hexEscape at h
  split at h
  · cases h
  · rename_i hl
    split at h
    · cases h
    · rename_i v hv
      split at h
      · cases h
      · cases h
        have := hexValue_lt hv
        rw [List.length_take, Nat.min_eq_left (by omega)] at this
        exact ⟨rfl, by simpa using this⟩

theorem unquoteEscape_value_lt {q e : Char} {s : List Char} {u : Unquoted}
    (h : unquoteEscape q e s = .ok u) (hm : u.multibyte = false) : u.value < 256 := by
  unfold unquoteEscape at h
  split at h
  any_goals (cases h; simp)
  case h_8 | h_9 | h_10 => obtain ⟨h1, h2⟩ := hexEscape_value h; simp_all
  case h_12 | h_13 => split at h <;> cases h; simp
  case h_14 =>
    split at h
    · unfold octEscape at h
      split at h
      · cases h
      · split at h
        · cases h
        · split at h
          · cases h
          · cases h; simp only at *; omega
    · cases h

/-- A value that is not multibyte is one byte. -/
theorem unquoteChar_value_lt {s : List Char} {q : Char} {u : Unquoted} (h : unquoteChar s q = .ok u)
    (hm : u.multibyte = false) : u.value < 256 := by
  match s, h with
  | c :: rest, h =>
    simp only [unquoteChar] at h
    split_ifs at h with h1 h2 h3
    · cases h; cases hm
    · cases h; simp only at *; omega
    · match rest, h with
      | e :: s, h => exact unquoteEscape_value_lt h hm

end Hlb.Go
