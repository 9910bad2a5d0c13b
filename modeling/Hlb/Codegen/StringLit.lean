/-
  Hlb.Codegen.StringLit — `CodeGen.EmitStringLit`: an interpreted string literal is
  decoded a fragment at a time and the pieces are joined. A text fragment is its own bytes;
  the escaped fragment `\$` is `$`; any other escaped fragment is read by
  `strconv.UnquoteChar` and written as `string(value)`; an interpolation is its
  expression's string value.

  The lexer hands on text with no quote and no backslash, raw newlines included, and an
  escape as two characters, the backslash and the one after it (`TextOrEscape`).
  `UnquoteChar` reads such an escape whole when it is one of Go's one-character escapes
  (`\a \b \f \n \r \t \v \\ \"`), and fails on any other: an escape with digits (`\xNN`,
  `\NNN`, `\u`, `\U`) reaches the code as its first two characters, and the literal fails
  with `ErrSyntax`. (The code writes `string(value)` where `Unquote` writes `byte(value)`
  for a byte escape; no byte escape reaches it whole, and a one-character escape is below
  `0x80`, where the two agree.)

  Proved, over every literal of text and escapes as the lexer delivers them:
  - `emitStringLit_lexed`: `EmitStringLit` succeeds, with the bytes of the fragments,
    exactly when every escape is `\$` or a complete escape sequence (`ReadEscape`), and
    fails with `ErrSyntax` otherwise; so `"\x41"` fails where `Unquote` gives `A`.
  - `emitStringLit_unquote`: those bytes are what `Unquote` gives for the whole literal
    (with `\$` read as `$`) exactly when the literal has no raw newline, which `Unquote`
    refuses and the code keeps.
-/
import Hlb.Go.Strconv
import Hlb.Codegen.Ast

namespace Hlb.Codegen

open Hlb.Go

variable {α : Type} (emitExpr : α → Except Err (List Nat))

/-- The piece an escaped fragment adds. `escaped[1]` is a byte index: it panics on a
fragment of one byte. -/
def escapedPiece (e : List Char) : Except Err (List Nat) :=
  match index (encode e) 1 with
  | .error m => .error (.panic m)
  | .ok b =>
    if b = '$'.toNat then .ok (encode ['$'])
    else match unquoteChar e '"' with
      | .ok u => .ok (encodeRune u.value)
      | .error () => .error .errSyntax

/-- The piece one fragment adds. `emitExpr` is `EmitExpr` into a fresh register, then
`Value().String()`. -/
def stringPiece : StringFragment α → Except Err (List Nat)
  | .text s => .ok (encode s)
  | .escaped e => escapedPiece e
  | .interpolated x => emitExpr x

/-- `CodeGen.EmitStringLit`: the bytes it sets the register to. -/
def emitStringLit : List (StringFragment α) → Except Err (List Nat)
  | [] => .ok []
  | f :: fs => do
    let p ← stringPiece emitExpr f
    let rest ← emitStringLit fs
    pure (p ++ rest)

theorem emitStringLit_eq_mapM (frags : List (StringFragment α)) :
    emitStringLit emitExpr frags = List.flatten <$> frags.mapM (stringPiece emitExpr) := by
  induction frags with
  | nil => rfl
  | cons f fs ih =>
    rw [emitStringLit, List.mapM_cons, ih]
    rcases stringPiece emitExpr f with e | p <;> rcases fs.mapM (stringPiece emitExpr) with e' | ps <;>
      rfl

/-! ## Literals of text and escapes -/

/-- A text or escaped fragment as the lexer delivers it: text with no quote and no
backslash, raw newlines included, or a backslash and one more character. -/
def TextOrEscape : StringFragment α → Prop
  | .text s => ∀ c ∈ s, c ≠ '"' ∧ c ≠ '\\'
  | .escaped e => ∃ c, e = ['\\', c]
  | .interpolated _ => False

/-- An escape the code reads: `\$`, or a complete escape sequence of a double-quoted Go
string, one that `UnquoteChar` reads whole. -/
def ReadEscape : StringFragment α → Prop
  | .escaped e => e = ['\\', '$'] ∨ ∃ u, unquoteChar e '"' = .ok u ∧ u.tail = []
  | _ => True

/-- The fragment as it stands in the literal, `\$` read as `$`. -/
def literalText : StringFragment α → List Char
  | .text s => s
  | .escaped e => if e = ['\\', '$'] then ['$'] else e
  | .interpolated _ => []

/-- The bytes of a fragment the code reads: text its own, `\$` those of `$`, and an escape
`string(value)` of the value `UnquoteChar` reads. -/
def fragmentBytes : StringFragment α → List Nat
  | .text s => encode s
  | .escaped e =>
    if e = ['\\', '$'] then encode ['$']
    else match unquoteChar e '"' with
      | .ok u => encodeRune u.value
      | .error () => []
  | .interpolated _ => []

/-! ## One fragment -/

theorem encodeRune_head_ne {r : Nat} (h : r ≠ '$'.toNat) : (encodeRune r)[0]? ≠ some '$'.toNat := by
  have : '$'.toNat = 36 := rfl
  unfold encodeRune
  split_ifs <;> simp <;> omega

theorem encodeRune_cons (r : Nat) : ∃ b rest, encodeRune r = b :: rest := by
  unfold encodeRune; split_ifs <;> simp

/-- An escape of two characters: `$` is `$`, and any other is what `UnquoteChar` reads. -/
theorem escapedPiece_pair (c : Char) :
    escapedPiece ['\\', c] =
      if c = '$' then .ok (encode ['$'])
      else match unquoteEscape '"' c [] with
        | .ok u => .ok (encodeRune u.value)
        | .error () => .error .errSyntax := by
  obtain ⟨b, rest, hx⟩ := encodeRune_cons c.toNat
  have hi : index (encode ['\\', c]) 1 = .ok b := by
    simp [hx, show encodeRune 92 = [92] from rfl, index]
  rw [escapedPiece, hi]
  by_cases hc : c = '$'
  · subst hc
    cases hx
    rfl
  · have hb : b ≠ '$'.toNat := fun hb =>
      encodeRune_head_ne (r := c.toNat) (fun h => hc (Char.ext (UInt32.toNat.inj h))) (by simp [hx, hb])
    simp only [hb, hc, if_false, unquoteChar_backslash]

theorem readEscape_pair {c : Char} :
    ReadEscape (α := α) (.escaped ['\\', c]) ↔ c = '$' ∨ ∃ u, unquoteEscape '"' c [] = .ok u := by
  simp only [ReadEscape, List.cons.injEq, and_true, true_and, unquoteChar_backslash]
  exact or_congr Iff.rfl ⟨fun ⟨u, hu, _⟩ => ⟨u, hu⟩, fun ⟨u, hu⟩ => ⟨u, hu, (unquoteEscape_nil hu).2⟩⟩

theorem stringPiece_of_read {f : StringFragment α} (hf : TextOrEscape f) (hr : ReadEscape f) :
    stringPiece emitExpr f = .ok (fragmentBytes f) := by
  match f, hf with
  | .text s, _ => rfl
  | .escaped _, ⟨c, rfl⟩ =>
    rw [stringPiece, escapedPiece_pair, fragmentBytes, unquoteChar_backslash]
    by_cases hc : c = '$'
    · subst hc; rfl
    · obtain ⟨u, hu⟩ := (readEscape_pair.1 hr).resolve_left hc
      simp [hc, hu]

theorem stringPiece_of_not_read {f : StringFragment α} (hf : TextOrEscape f) (hr : ¬ReadEscape f) :
    stringPiece emitExpr f = .error .errSyntax := by
  match f, hf with
  | .text s, _ => exact absurd trivial hr
  | .escaped _, ⟨c, rfl⟩ =>
    have hc : c ≠ '$' := fun hc => hr (readEscape_pair.2 (.inl hc))
    rw [stringPiece, escapedPiece_pair, if_neg hc]
    rcases hu : unquoteEscape '"' c [] with ⟨⟩ | u
    · rfl
    · exact absurd (readEscape_pair.2 (.inr ⟨u, hu⟩)) hr

/-! ## The literal -/

theorem emitStringLit_of_read {frags : List (StringFragment α)} (h : ∀ f ∈ frags, TextOrEscape f)
    (hr : ∀ f ∈ frags, ReadEscape f) :
    emitStringLit emitExpr frags = .ok (frags.flatMap fragmentBytes) := by
  induction frags with
  | nil => rfl
  | cons f fs ih =>
    rw [List.forall_mem_cons] at h hr
    simp only [emitStringLit, stringPiece_of_read emitExpr h.1 hr.1, ih h.2 hr.2, List.flatMap_cons]
    rfl

theorem emitStringLit_of_not_read {frags : List (StringFragment α)}
    (h : ∀ f ∈ frags, TextOrEscape f) (hr : ∃ f ∈ frags, ¬ReadEscape f) :
    emitStringLit emitExpr frags = .error .errSyntax := by
  induction frags with
  | nil => simp at hr
  | cons f fs ih =>
    rw [List.forall_mem_cons] at h
    by_cases hf : ReadEscape f
    · have hr' : ∃ g ∈ fs, ¬ReadEscape g :=
        hr.imp fun g ⟨hg, hn⟩ => ⟨(List.mem_cons.1 hg).resolve_left fun he => hn (he ▸ hf), hn⟩
      simp only [emitStringLit, stringPiece_of_read emitExpr h.1 hf, ih h.2 hr']
      rfl
    · simp only [emitStringLit, stringPiece_of_not_read emitExpr h.1 hf]
      rfl

/-- A literal of text and escapes as the lexer delivers them: `EmitStringLit` succeeds with
the bytes of its fragments when every escape is `\$` or a complete escape sequence, and
fails with `ErrSyntax` when one is not. -/
theorem emitStringLit_lexed {frags : List (StringFragment α)} (h : ∀ f ∈ frags, TextOrEscape f) :
    ((∀ f ∈ frags, ReadEscape f) → emitStringLit emitExpr frags = .ok (frags.flatMap fragmentBytes)) ∧
      ((∃ f ∈ frags, ¬ReadEscape f) → emitStringLit emitExpr frags = .error .errSyntax) :=
  ⟨emitStringLit_of_read emitExpr h, emitStringLit_of_not_read emitExpr h⟩

/-- `"\x41"`, which the lexer delivers as the escape `\x` and the text `41`: the code fails
with `ErrSyntax`, and `Unquote` reads `A`. -/
theorem emitStringLit_hex_escape :
    (∀ f ∈ ([.escaped ['\\', 'x'], .text ['4', '1']] : List (StringFragment Unit)), TextOrEscape f) ∧
      (∃ f ∈ ([.escaped ['\\', 'x'], .text ['4', '1']] : List (StringFragment Unit)),
        ¬ReadEscape f) ∧
      emitStringLit (fun _ => .ok []) ([.escaped ['\\', 'x'], .text ['4', '1']] : List (StringFragment Unit)) =
        .error .errSyntax ∧
      unquote ['\\', 'x', '4', '1'] = .ok [0x41] :=
  have h : ∀ f ∈ ([.escaped ['\\', 'x'], .text ['4', '1']] : List (StringFragment Unit)),
      TextOrEscape f := by
    simp only [List.mem_cons, List.mem_singleton, List.not_mem_nil, or_false, forall_eq_or_imp,
      forall_eq]
    exact ⟨⟨'x', rfl⟩, (by decide : ∀ c ∈ ['4', '1'], c ≠ '"' ∧ c ≠ '\\')⟩
  have hn : ∃ f ∈ ([.escaped ['\\', 'x'], .text ['4', '1']] : List (StringFragment Unit)),
      ¬ReadEscape f :=
    ⟨_, List.mem_cons_self _ _, fun hr => by
      obtain ⟨u, hu⟩ := (readEscape_pair.1 hr).resolve_left (by decide)
      cases hu⟩
  ⟨h, hn, (emitStringLit_lexed (fun _ => .ok []) h).2 hn, rfl⟩

/-! ## The literal as `Unquote` reads it -/

/-- `Unquote`'s loop reads the literal a fragment at a time. -/
theorem unquoteChars_lexed {frags : List (StringFragment α)}
    (h : ∀ f ∈ frags, TextOrEscape f ∧ ReadEscape f) :
    unquoteChars (frags.flatMap literalText) = .ok (frags.flatMap fragmentBytes) := by
  induction frags with
  | nil => rfl
  | cons f fs ih =>
    rw [List.forall_mem_cons] at h
    rw [List.flatMap_cons, List.flatMap_cons]
    match f, h.1 with
    | .text s, ⟨hs, _⟩ =>
      rw [literalText, unquoteChars_append_plain hs, ih h.2]
      rfl
    | .escaped _, ⟨⟨c, rfl⟩, hr⟩ =>
      by_cases hc : c = '$'
      · subst hc
        rw [literalText, if_pos rfl, unquoteChars_append_plain (by decide), ih h.2]
        rfl
      · have hd : ['\\', c] ≠ ['\\', '$'] := by simp [hc]
        obtain ⟨u, hu⟩ := (readEscape_pair.1 hr).resolve_left hc
        obtain ⟨hv, ht⟩ := unquoteEscape_nil hu
        have hu' : unquoteChar ['\\', c] '"' = .ok u := (unquoteChar_backslash c []).trans hu
        rw [literalText, if_neg hd, unquoteChars_append_unit hu' ht, ih h.2, unquotedBytes_of_lt hv]
        simp [fragmentBytes, hd, hu', Except.map]

/-- A literal of text and escapes as the lexer delivers them, every escape `\$` or a
complete escape sequence: `EmitStringLit` sets the bytes of its fragments, and these are
what `Unquote` gives for the whole literal, `\$` read as `$`, exactly when the literal has no
raw newline. -/
theorem emitStringLit_unquote {frags : List (StringFragment α)}
    (h : ∀ f ∈ frags, TextOrEscape f ∧ ReadEscape f) :
    emitStringLit emitExpr frags = .ok (frags.flatMap fragmentBytes) ∧
      (unquote (frags.flatMap literalText) = .ok (frags.flatMap fragmentBytes) ↔
        '\n' ∉ frags.flatMap literalText) := by
  refine ⟨emitStringLit_of_read emitExpr (fun f hf => (h f hf).1) fun f hf => (h f hf).2,
    fun hu hn => ?_, fun hn => (unquote_eq_unquoteChars hn).trans (unquoteChars_lexed h)⟩
  rw [unquote, if_pos hn] at hu
  cases hu

/-- The literal `"hi\n"`, as the lexer delivers it. -/
def hiNewline : List (StringFragment Unit) := [.text ['h', 'i'], .escaped ['\\', 'n']]

theorem emitStringLit_newline_escape :
    (∀ f ∈ hiNewline, TextOrEscape f ∧ ReadEscape f) ∧
      emitStringLit (fun _ => .ok []) hiNewline = .ok (hiNewline.flatMap fragmentBytes) ∧
        (unquote (hiNewline.flatMap literalText) = .ok (hiNewline.flatMap fragmentBytes) ↔
          '\n' ∉ hiNewline.flatMap literalText) :=
  have h : ∀ f ∈ hiNewline, TextOrEscape f ∧ ReadEscape f := by
    simp only [hiNewline, List.mem_cons, List.mem_singleton, forall_eq_or_imp, forall_eq,
      List.not_mem_nil, false_imp_iff, imp_true_iff, and_true]
    exact ⟨⟨(by decide : ∀ c ∈ ['h', 'i'], c ≠ '"' ∧ c ≠ '\\'), trivial⟩, ⟨_, rfl⟩, .inr ⟨_, rfl, rfl⟩⟩
  ⟨h, emitStringLit_unquote _ h⟩

example : hiNewline.flatMap fragmentBytes = [0x68, 0x69, 0x0A] := rfl

/-- The literal `"a⏎b"`: the code sets `a`, a newline and `b`, and `Unquote` refuses it. -/
theorem emitStringLit_raw_newline :
    (∀ f ∈ ([.text ['a', '\n', 'b']] : List (StringFragment Unit)), TextOrEscape f ∧ ReadEscape f) ∧
      emitStringLit (fun _ => .ok []) ([.text ['a', '\n', 'b']] : List (StringFragment Unit)) =
        .ok [0x61, 0x0A, 0x62] ∧
      unquote ['a', '\n', 'b'] = .error () :=
  ⟨by
    simp only [List.mem_singleton, forall_eq]
    exact ⟨(by decide : ∀ c ∈ ['a', '\n', 'b'], c ≠ '"' ∧ c ≠ '\\'), trivial⟩, rfl, rfl⟩

end Hlb.Codegen
