import Mathlib.Logic.Function.Basic
import SchemaGo.Option.Literal
import SchemaGo.Proofs.Go.StructTag

/-!
# Reading byte literals back

A byte literal is read as Go reads it: blanks between the elements do not count, and every
element is a number of two hexadecimal digits with a comma behind it.  The rows of the
literal are described by `Rows`, one constructor for a full row with more bytes to come and
one for the last row, so that every fact about them is one induction.
-/

namespace SchemaGo

/-! ## The reader -/

namespace ByteLiteral

def digitValue? (c : Char) : Option Nat := "0123456789abcdef".toList.idxOf? c

def isGoBlank (c : Char) : Bool := c == ' ' || c == '\t' || c == '\n' || c == '\r'

def readElements? : List Char → Option Bytes
  | [] => some []
  | '0' :: 'x' :: high :: low :: ',' :: rest =>
    match digitValue? high, digitValue? low, readElements? rest with
    | some high, some low, some bytes => some ((16 * high + low).toUInt8 :: bytes)
    | _, _, _ => none
  | c :: rest => if isGoBlank c then readElements? rest else none

def opening : List Char := "[]byte\x7b".toList

def read? (text : String) : Option Bytes :=
  if opening.isPrefixOf text.toList ∧ text.toList.getLast? = some '\x7d' then
    readElements? (text.toList.drop opening.length).dropLast
  else none

theorem digitValue?_hexDigit (n : Nat) : digitValue? (hexDigit n) = some (n % 16) := by
  have hall : ∀ d : Fin 16, digitValue? (hexDigit d.val) = some d.val := by
    decide
  have hmod : hexDigit (n % 16) = hexDigit n := by
    rw [hexDigit, hexDigit, Nat.mod_mod]
  rw [← hmod]
  exact hall ⟨n % 16, Nat.mod_lt n (by decide)⟩

theorem readElements?_byteElement (b : UInt8) (rest : List Char) :
    readElements? (byteElement b ++ rest) = (readElements? rest).map (b :: ·) := by
  have hlt : b.toNat < 256 := b.toNat_lt
  have hvalue : 16 * (b.toNat / 16 % 16) + b.toNat % 16 = b.toNat := by omega
  simp only [byteElement, List.cons_append, List.nil_append, readElements?, digitValue?_hexDigit]
  cases readElements? rest with
  | none => rfl
  | some bytes => simp [hvalue]

theorem readElements?_blank {c : Char} (h : isGoBlank c) (rest : List Char) :
    readElements? (c :: rest) = readElements? rest := by
  have hzero : c ≠ '0' := by
    rintro rfl
    exact absurd h (by decide)
  rw [readElements?.eq_3 _ _ (by simp [hzero]), if_pos h]

theorem readElements?_intercalate (row : Bytes) (rest : List Char) :
    readElements? (List.intercalate [' '] (row.map byteElement) ++ rest) =
      (readElements? rest).map (row ++ ·) := by
  induction row with
  | nil => simp
  | cons b row ih =>
      cases row with
      | nil =>
          rw [List.map_singleton, List.intercalate_singleton]
          exact readElements?_byteElement b rest
      | cons b' row =>
          rw [List.map_cons, List.map_cons, List.intercalate_cons_cons, ← List.map_cons,
            List.append_assoc, List.append_assoc, readElements?_byteElement,
            List.singleton_append, readElements?_blank (by decide), ih, Option.map_map]
          rfl

def rowText (row : Bytes) : List Char := List.intercalate [' '] (row.map byteElement)

theorem readElements?_rowText (row : Bytes) : readElements? (rowText row) = some row := by
  have h := readElements?_intercalate row []
  rw [List.append_nil, readElements?] at h
  simpa [rowText] using h

theorem newline_not_mem_rowText (row : Bytes) : '\n' ∉ rowText row := by
  have helement : ∀ n : Fin 256, (byteElement (UInt8.ofFin n)).all (· != '\n') := by
    decide +kernel
  have hall : (rowText row).all (· != '\n') := by
    rw [rowText, StructTag.all_intercalate (· != '\n') ' ' (by decide), List.all_map,
      List.all_eq_true]
    exact fun b _ => helement b.toFin
  intro hmem
  exact absurd (List.all_eq_true.mp hall _ hmem) (by decide)

theorem readElements?_literalLine (row : Bytes) (rest : List Char) :
    readElements? (literalLine row ++ rest) = (readElements? rest).map (row ++ ·) := by
  rw [literalLine, List.cons_append, List.cons_append, readElements?_blank (by decide),
    List.append_assoc, readElements?_intercalate, List.singleton_append,
    readElements?_blank (by decide)]

theorem readElements?_flatMap (rows : List Bytes) :
    readElements? (rows.flatMap literalLine) = some rows.flatten := by
  induction rows with
  | nil => rfl
  | cons row rows ih =>
      rw [List.flatMap_cons, readElements?_literalLine, ih, List.flatten_cons]
      rfl

/-! ## Rows -/

/-- The bytes in rows of `size`.  Only the last row can be shorter, and no row is empty. -/
inductive Rows (size : Nat) : List Bytes → Bytes → Prop where
  | last {row : Bytes} (hne : row ≠ []) (hle : row.length ≤ size) : Rows size [row] row
  | full {row rest : Bytes} {rows : List Bytes} (hrow : row.length = size)
      (hrest : Rows size rows rest) : Rows size (row :: rows) (row ++ rest)

theorem rows_chunksFrom {size : Nat} (hsize : 0 < size) {fuel : Nat} {bytes : Bytes}
    (hne : bytes ≠ []) (hfuel : bytes.length ≤ fuel) :
    Rows size (chunksFrom size fuel bytes) bytes := by
  induction fuel generalizing bytes with
  | zero => exact absurd (List.eq_nil_of_length_eq_zero (Nat.le_zero.mp hfuel)) hne
  | succ fuel ih =>
      rw [chunksFrom, if_neg (by simpa using hne)]
      by_cases hle : bytes.length ≤ size
      · have hdrop : bytes.drop size = [] := List.drop_eq_nil_of_le hle
        have hnil : chunksFrom size fuel ([] : Bytes) = [] := by cases fuel <;> rfl
        rw [hdrop, hnil, List.take_of_length_le hle]
        exact .last hne hle
      · have hdrop : bytes.drop size ≠ [] := by simpa using hle
        have hlength : (bytes.drop size).length ≤ fuel := by
          rw [List.length_drop]
          omega
        have hrow : (bytes.take size).length = size := List.length_take_of_le (by omega)
        have hrows := Rows.full hrow (ih hdrop hlength)
        rwa [List.take_append_drop] at hrows

section

variable {size : Nat} {rows : List Bytes} {bytes : Bytes} (h : Rows size rows bytes)

include h

theorem Rows.ne_nil : rows ≠ [] := by
  cases h <;> simp

theorem Rows.flatten_eq : rows.flatten = bytes := by
  induction h with
  | last => simp
  | full _ _ ih => rw [List.flatten_cons, ih]

theorem Rows.length_of_mem_dropLast : ∀ row ∈ rows.dropLast, row.length = size := by
  induction h with
  | last => simp
  | full hrow hrest ih =>
      rw [List.dropLast_cons_of_ne_nil hrest.ne_nil]
      exact List.forall_mem_cons.mpr ⟨hrow, ih⟩

theorem Rows.length_of_getLast? :
    ∀ row ∈ rows.getLast?, 1 ≤ row.length ∧ row.length ≤ size := by
  induction h with
  | last hne hle =>
      simpa using ⟨List.length_pos_iff.mpr hne, hle⟩
  | full _ hrest ih =>
      obtain ⟨row, rows, rfl⟩ := List.exists_cons_of_ne_nil hrest.ne_nil
      rw [List.getLast?_cons_cons]
      exact ih

end

theorem Rows.length_eq {rows : List Bytes} {bytes : Bytes} (h : Rows literalWidth rows bytes) :
    rows.length = (bytes.length + 15) / 16 := by
  induction h with
  | last hne hle =>
      have hpos := List.length_pos_iff.mpr hne
      rw [literalWidth] at hle
      rw [List.length_singleton]
      omega
  | full hrow _ ih =>
      rw [literalWidth] at hrow
      rw [List.length_cons, List.length_append, ih]
      omega

/-! ## Whole literals -/

theorem byteLiteralChars_of_ne_nil {bytes : Bytes} (h : bytes ≠ []) :
    byteLiteralChars bytes =
      opening ++ '\n' :: (chunks literalWidth bytes).flatMap literalLine ++ ['\x7d'] := by
  rw [byteLiteralChars, if_neg (by simpa using h)]
  rfl

theorem rows_chunks {bytes : Bytes} (h : bytes ≠ []) :
    Rows literalWidth (chunks literalWidth bytes) bytes :=
  rows_chunksFrom (by decide) h (Nat.le_refl _)

theorem read?_eq_readElements? (body : List Char) :
    read? (String.ofList (opening ++ body ++ ['\x7d'])) = readElements? body := by
  have hopening : opening.isPrefixOf (opening ++ body ++ ['\x7d']) := by
    rw [List.isPrefixOf_iff_prefix, List.append_assoc]
    exact List.prefix_append opening _
  have hlast : (opening ++ body ++ ['\x7d']).getLast? = some '\x7d' := List.getLast?_concat
  rw [read?, String.toList_ofList, if_pos ⟨hopening, hlast⟩, List.append_assoc, List.drop_left,
    List.dropLast_concat]

theorem read?_byteLiteral (bytes : Bytes) : read? (byteLiteral bytes) = some bytes := by
  by_cases hne : bytes = []
  · subst hne
    exact read?_eq_readElements? []
  · rw [byteLiteral, byteLiteralChars_of_ne_nil hne, read?_eq_readElements?,
      readElements?_blank (by decide), readElements?_flatMap, (rows_chunks hne).flatten_eq]

structure Lines (lines : List (List Char × Bytes)) (bytes : Bytes) : Prop where
  length_eq : lines.length = (bytes.length + 15) / 16
  oneLine : ∀ line ∈ lines, '\n' ∉ line.1
  reads : ∀ line ∈ lines, readElements? line.1 = some line.2
  full : ∀ line ∈ lines.dropLast, line.2.length = 16
  last : ∀ line ∈ lines.getLast?, 1 ≤ line.2.length ∧ line.2.length ≤ 16
  flatten_eq : (lines.map Prod.snd).flatten = bytes

theorem Rows.lines {rows : List Bytes} {bytes : Bytes} (h : Rows literalWidth rows bytes) :
    Lines (rows.map fun row => (rowText row, row)) bytes where
  length_eq := by rw [List.length_map, h.length_eq]
  oneLine := by simpa using fun row _ => newline_not_mem_rowText row
  reads := by simpa using fun row _ => readElements?_rowText row
  full := by
    rw [← List.map_dropLast, List.forall_mem_map]
    exact h.length_of_mem_dropLast
  last := by
    rw [List.getLast?_map]
    simpa [literalWidth] using h.length_of_getLast?
  flatten_eq := by
    rw [List.map_map]
    change (rows.map id).flatten = bytes
    rw [List.map_id, h.flatten_eq]

/-- The literal of a file reads as the bytes of the file, so different files have different
literals, and it is laid out in indented lines of sixteen. -/
theorem byteLiteral_reads_back :
    (∀ bytes, read? (byteLiteral bytes) = some bytes) ∧
    Function.Injective byteLiteral ∧
    byteLiteral [] = "[]byte\x7b\x7d" ∧
    ∀ bytes, bytes ≠ [] → ∃ lines, Lines lines bytes ∧
      (byteLiteral bytes).toList = "[]byte\x7b\n".toList ++
        lines.flatMap (fun line => '\t' :: line.1 ++ ['\n']) ++ ['\x7d'] := by
  refine ⟨read?_byteLiteral, fun bytes other h => ?_, rfl, fun bytes hne => ?_⟩
  · have hread := read?_byteLiteral bytes
    rw [h, read?_byteLiteral] at hread
    exact (Option.some.inj hread).symm
  · refine ⟨_, (rows_chunks hne).lines, ?_⟩
    rw [byteLiteral, String.toList_ofList, byteLiteralChars_of_ne_nil hne, List.flatMap_map]
    rfl

theorem byteLiteral_reads_back_seventeen :
    read? (byteLiteral (List.replicate 17 0xAB)) = some (List.replicate 17 0xAB) ∧
    byteLiteral (List.replicate 16 0xAB) ≠ byteLiteral (List.replicate 17 0xAB) ∧
    List.replicate 17 (0xAB : UInt8) ≠ [] ∧
    ∃ lines, Lines lines (List.replicate 17 0xAB) ∧ lines.length = 2 := by
  obtain ⟨hread, hinjective, -, hlines⟩ := byteLiteral_reads_back
  have hne : List.replicate 17 (0xAB : UInt8) ≠ [] := by decide
  obtain ⟨lines, hlaid, -⟩ := hlines _ hne
  exact ⟨hread _, hinjective.ne (by decide), hne, lines, hlaid, hlaid.length_eq⟩

end ByteLiteral

end SchemaGo
