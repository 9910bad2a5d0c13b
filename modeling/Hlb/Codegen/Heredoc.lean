/-
  Hlb.Codegen.Heredoc — `emitHeredocPieces`, `CodeGen.EmitHeredoc` and
  `CodeGen.EmitRawHeredoc`.

  A heredoc's fragments become pieces (an escaped fragment stays as written, `\$` apart;
  a raw heredoc has only spaces and text), the pieces are joined, a leading newline run and
  a trailing run of newlines and tabs are cut, and the opener with its terminator cut off
  picks what follows: `<<-` dedents (the `lithammer/dedent` library, a parameter here),
  `<<~` folds the lines into one, and any other opener keeps the text.

  The fold reads the lines with a `bufio.Scanner` over the trimmed text, with the default
  split function `ScanLines`, and never looks at `Err()`. `Scan` hands out one token per
  line (the newline, and a carriage return before it, dropped; the last line when it is not
  empty), and stops for good at the first line whose bytes do not fit its buffer,
  `MaxScanTokenSize` = 64 KiB (`ErrTooLong`). The buffer grows from the line's first byte
  up to that size, so a line of at most 65535 bytes fits, with or without a newline after
  it, and a longer one ends the scan. `scanLines` is that sequence of tokens.

  Proved:
  - `fold_of_lines_fit`: when every line of the trimmed text fits the scanner, the fold is
    the specified one: each line of `TrimSpace(raw)` trimmed, joined by single spaces.
  - `emitHeredocPieces_fold_one_line`: whatever the pieces, a `<<~` heredoc's text has no
    newline.
  - `emitHeredocPieces_long_line`: a `<<~` heredoc whose body is one line of 65536 bytes
    folds to the empty string; the specified fold is that line.
-/
import Hlb.Go.Strings
import Hlb.Codegen.Ast

namespace Hlb.Codegen

open Hlb.Go

def maxScanTokenSize : Nat := 64 * 1024

/-- `ScanLines`' `dropCR`: a carriage return before the newline is dropped. -/
def dropCR (l : List Char) : List Char := if l.getLast? = some '\r' then l.dropLast else l

/-- The lines `ScanLines` cuts the input into: one at each newline, and the rest of the
input when it is not empty. -/
def lineTokens (s : List Char) : List (List Char) :=
  let parts := split s '\n'
  if parts.getLast? = some [] then parts.dropLast else parts

/-- The tokens `Scan` hands out before it stops: every line up to the first that does not
fit `MaxScanTokenSize` bytes. -/
def scanLines (s : List Char) : List (List Char) :=
  ((lineTokens s).takeWhile fun l => (encode l).length < maxScanTokenSize).map dropCR

/-- The text before the opener's switch: the pieces joined, the leading newlines and the
trailing newlines and tabs cut. -/
def heredocRaw (pieces : List (List Char)) : List Char :=
  trimRight (trimLeft (join pieces []) ['\n']) ['\n', '\t']

/-- `emitHeredocPieces`: the text it sets the register to. -/
def emitHeredocPieces (dedent : List Char → List Char) (start terminate : List Char)
    (pieces : List (List Char)) : List Char :=
  let raw := heredocRaw pieces
  match trimSuffix start terminate with
  | ['<', '<', '-'] => dedent raw
  | ['<', '<', '~'] => join ((scanLines (trimSpace raw)).map trimSpace) [' ']
  | _ => raw

variable {α : Type}

/-- The piece an escaped heredoc fragment adds: `\$` is `$`, any other escape stays as
written. `escaped[1]` is a byte index. -/
def heredocEscapedPiece (e : List Char) : Except Err (List Char) :=
  match index (encode e) 1 with
  | .error m => .error (.panic m)
  | .ok b => .ok (if b = '$'.toNat then ['$'] else e)

/-- The piece one heredoc fragment adds. -/
def heredocPiece (emitExpr : α → Except Err (List Char)) : HeredocFragment α → Except Err (List Char)
  | .spaces s => .ok s
  | .escaped e => heredocEscapedPiece e
  | .interpolated x => emitExpr x
  | .text s => .ok s

def emitHeredoc (dedent : List Char → List Char) (emitExpr : α → Except Err (List Char))
    (h : Heredoc α) : Except Err (List Char) :=
  (h.fragments.mapM (heredocPiece emitExpr)).map (emitHeredocPieces dedent h.start h.terminate)

def rawHeredocPiece : RawHeredocFragment → List Char
  | .spaces s => s
  | .text s => s

/-- `CodeGen.EmitRawHeredoc`: the terminator is quoted, as in the opener. -/
def emitRawHeredoc (dedent : List Char → List Char) (h : RawHeredoc) : List Char :=
  emitHeredocPieces dedent h.start ('\x60' :: h.terminate ++ ['\x60']) (h.fragments.map rawHeredocPiece)

/-- The fold as specified: each line of the trimmed text trimmed, joined by single spaces. -/
def foldLines (raw : List Char) : List Char := join ((split (trimSpace raw) '\n').map trimSpace) [' ']

/-! ## The fold -/

theorem trimSpace_dropCR (l : List Char) : trimSpace (dropCR l) = trimSpace l := by
  unfold dropCR
  split
  · rename_i h
    obtain ⟨ys, rfl⟩ := List.getLast?_eq_some_iff.mp h
    rw [List.dropLast_concat, trimSpace_append_space ys (by decide)]
  · rfl

/-- A trimmed text is cut into lines exactly as `Split` cuts it, unless it is empty. -/
theorem lineTokens_trimSpace {raw : List Char} (ht : trimSpace raw ≠ []) :
    lineTokens (trimSpace raw) = split (trimSpace raw) '\n' := by
  have hl : (trimSpace raw).getLast? ≠ some '\n' := by
    rw [List.getLast?_eq_getLast _ ht]
    intro h
    have := trimSpace_getLast_not_space ht
    rw [Option.some.inj h] at this
    cases this
  simp only [lineTokens, split_getLast_ne_nil hl ht, if_false]

/-- When every line fits the scanner, the fold is the specified one. -/
theorem fold_of_lines_fit {raw : List Char}
    (h : ∀ l ∈ split (trimSpace raw) '\n', (encode l).length < maxScanTokenSize) :
    join ((scanLines (trimSpace raw)).map trimSpace) [' '] = foldLines raw := by
  by_cases ht : trimSpace raw = []
  · rw [foldLines, ht]; rfl
  · rw [scanLines, lineTokens_trimSpace ht, List.takeWhile_eq_self_iff.mpr (by simpa using h),
      List.map_map, foldLines]
    congr 2
    funext l
    exact trimSpace_dropCR l

/-- Two short lines fold into one. -/
theorem fold_of_lines_fit_two :
    (∀ l ∈ split (trimSpace ['a', '\n', 'b']) '\n', (encode l).length < maxScanTokenSize) ∧
      join ((scanLines (trimSpace ['a', '\n', 'b'])).map trimSpace) [' '] =
        foldLines ['a', '\n', 'b'] :=
  have h : ∀ l ∈ split (trimSpace ['a', '\n', 'b']) '\n', (encode l).length < maxScanTokenSize := by
    decide
  ⟨h, fold_of_lines_fit h⟩

theorem emitHeredocPieces_fold (dedent : List Char → List Char) {start terminate : List Char}
    (hs : trimSuffix start terminate = ['<', '<', '~']) (pieces : List (List Char)) :
    emitHeredocPieces dedent start terminate pieces =
      join ((scanLines (trimSpace (heredocRaw pieces))).map trimSpace) [' '] := by
  simp only [emitHeredocPieces, hs]

theorem dropCR_subset (l : List Char) : dropCR l ⊆ l := by
  unfold dropCR
  split
  · exact List.dropLast_subset l
  · exact List.Subset.refl l

theorem lineTokens_subset (s : List Char) : lineTokens s ⊆ split s '\n' := by
  dsimp only [lineTokens]
  split
  · exact List.dropLast_subset _
  · exact List.Subset.refl _

/-- No line the scanner hands out holds a newline. -/
theorem newline_not_mem_of_mem_scanLines {s l : List Char} (hl : l ∈ scanLines s) : '\n' ∉ l := by
  obtain ⟨t, ht, rfl⟩ := List.mem_map.1 hl
  exact fun h => not_mem_of_mem_split (lineTokens_subset s ((List.takeWhile_prefix _).subset ht))
    (dropCR_subset t h)

/-- A `<<~` heredoc folds into one line: whatever its pieces, and wherever the scanner stops,
the text has no newline. -/
theorem emitHeredocPieces_fold_one_line (dedent : List Char → List Char) {start terminate : List Char}
    (hs : trimSuffix start terminate = ['<', '<', '~']) (pieces : List (List Char)) :
    '\n' ∉ emitHeredocPieces dedent start terminate pieces := by
  rw [emitHeredocPieces_fold dedent hs]
  refine not_mem_join (by decide) fun p hp => ?_
  obtain ⟨l, hl, rfl⟩ := List.mem_map.1 hp
  exact fun h => newline_not_mem_of_mem_scanLines hl (mem_of_mem_trimSpace h)

/-- `<<~END` over `a`, newline, `b`. -/
theorem emitHeredocPieces_sample_one_line :
    trimSuffix "<<~END".toList "END".toList = ['<', '<', '~'] ∧
      '\n' ∉ emitHeredocPieces id "<<~END".toList "END".toList [['a', '\n', 'b']] :=
  have hs : trimSuffix "<<~END".toList "END".toList = ['<', '<', '~'] := by decide
  ⟨hs, emitHeredocPieces_fold_one_line id hs _⟩

/-- A one-line body of 65536 bytes: the scanner stops at it, so the fold is empty, where the
specified fold is the line itself. -/
theorem emitHeredocPieces_long_line (dedent : List Char → List Char) :
    emitHeredocPieces dedent "<<~END".toList "END".toList [List.replicate 65536 'a'] = [] ∧
      foldLines (heredocRaw [List.replicate 65536 'a']) = List.replicate 65536 'a' := by
  have ha : ∀ c ∈ List.replicate 65536 'a', c = 'a' := fun c hc => List.eq_of_mem_replicate hc
  have hraw : heredocRaw [List.replicate 65536 'a'] = List.replicate 65536 'a' := by
    rw [heredocRaw, join_singleton, trimLeft_of_forall, trimRight_of_forall] <;>
      exact fun c hc => by rw [ha c hc]; decide
  have htrim : trimSpace (List.replicate 65536 'a') = List.replicate 65536 'a' :=
    trimSpace_of_forall fun c hc => by rw [ha c hc]; rfl
  have hsplit : split (List.replicate 65536 'a') '\n' = [List.replicate 65536 'a'] :=
    split_of_not_mem fun hm => absurd (ha _ hm) (by decide)
  have hlen : (encode (List.replicate 65536 'a')).length = 65536 := by
    rw [length_encode_of_ascii fun c hc => by rw [ha c hc]; decide, List.length_replicate]
  have hne : List.replicate 65536 'a' ≠ [] := List.ne_nil_of_length_pos (by rw [List.length_replicate]; decide)
  refine ⟨?_, ?_⟩
  · rw [emitHeredocPieces_fold dedent (by decide), hraw, htrim, scanLines, ← htrim,
      lineTokens_trimSpace (by rwa [htrim]), htrim, hsplit,
      List.takeWhile_cons_of_neg (by rw [hlen]; decide)]
    rfl
  · rw [foldLines, hraw, htrim, hsplit, List.map_singleton, htrim, join_singleton]

end Hlb.Codegen
