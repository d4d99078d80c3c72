import Mathlib.Logic.Function.Basic
import SchemaGo.Wire.Default

/-!
# Reading escaped bytes back

The reader looks ahead for up to three octal or two hexadecimal digits, so a text that
follows an escape could be taken for a part of it.  The writer leaves no room for that:
its octal escapes always have three digits, and its other escapes are complete after one
character.  So each byte is read back from its own characters whatever stands behind them.
-/

namespace SchemaGo

/-! ## Bytes of a text -/

namespace Text.Utf8

theorem loop_eq_append_drop (bytes : ByteArray) (i : Nat) (reversed : Bytes) :
    ByteArray.toList.loop bytes i reversed = reversed.reverse ++ bytes.data.toList.drop i := by
  fun_induction ByteArray.toList.loop bytes i reversed with
  | case1 i reversed hlt ih =>
      have hdrop : bytes.data.toList.drop i =
          bytes.get! i :: bytes.data.toList.drop (i + 1) := by
        rw [List.drop_eq_getElem_cons (by simpa using hlt)]
        simp [ByteArray.get!, hlt]
      rw [ih, hdrop, List.reverse_cons, List.append_assoc, List.singleton_append]
  | case2 i reversed hge =>
      rw [List.drop_of_length_le (by simpa using hge), List.append_nil]

theorem encode_ofList (cs : List Char) :
    encode (String.ofList cs) = cs.flatMap String.utf8EncodeChar := by
  simp [encode, ByteArray.toList, loop_eq_append_drop, List.utf8Encode]

end Text.Utf8

namespace Wire

/-! ## One byte -/

def escapedBytes (b : UInt8) : Bytes := (escapeByte b).flatMap String.utf8EncodeChar

theorem encode_escape (bytes : Bytes) :
    Text.Utf8.encode (escape bytes) = bytes.flatMap escapedBytes := by
  rw [escape, Text.Utf8.encode_ofList, List.flatMap_assoc]
  rfl

theorem escapeByte_printable (b : UInt8) :
    ∀ c ∈ escapeByte b, 0x20 ≤ c.toNat ∧ c.toNat ≤ 0x7E := by
  have hall : ∀ n : Fin 256, (escapeByte (UInt8.ofFin n)).all fun c =>
      0x20 ≤ c.toNat && c.toNat ≤ 0x7E := by
    decide +kernel
  simpa using hall b.toFin

theorem escapedBytes_ne_nil (b : UInt8) : escapedBytes b ≠ [] := by
  have hall : ∀ n : Fin 256, escapedBytes (UInt8.ofFin n) ≠ [] := by
    decide +kernel
  exact hall b.toFin

def isLiteralByte (b : UInt8) : Bool :=
  0x20 ≤ b && b ≤ 0x7E && !([0x22, 0x27, 0x5C] : List UInt8).contains b

def shortEscapes : List (UInt8 × UInt8) :=
  [(0x0A, 0x6E), (0x0D, 0x72), (0x09, 0x74), (0x22, 0x22), (0x27, 0x27), (0x5C, 0x5C)]

def octalByte (n : Nat) : UInt8 := (0x30 + n % 8).toUInt8

theorem escapedBytes_eq (b : UInt8) :
    escapedBytes b =
      if isLiteralByte b then [b]
      else match shortEscapes.lookup b with
        | some e => [0x5C, e]
        | none => [0x5C, octalByte (b.toNat / 64), octalByte (b.toNat / 8), octalByte b.toNat] := by
  have hall : ∀ n : Fin 256, escapedBytes (UInt8.ofFin n) =
      if isLiteralByte (UInt8.ofFin n) then [UInt8.ofFin n]
      else match shortEscapes.lookup (UInt8.ofFin n) with
        | some e => [0x5C, e]
        | none => [0x5C, octalByte ((UInt8.ofFin n).toNat / 64),
            octalByte ((UInt8.ofFin n).toNat / 8), octalByte (UInt8.ofFin n).toNat] := by
    decide +kernel
  exact hall b.toFin

/-! ## Reading one byte -/

theorem octalValue?_octalByte (n : Nat) : octalValue? (octalByte n) = some (n % 8) := by
  have hall : ∀ d : Fin 8, octalValue? (0x30 + d.val).toUInt8 = some d.val := by
    decide
  exact hall ⟨n % 8, Nat.mod_lt n (by decide)⟩

theorem readEscape_octal (b : UInt8) (rest : Bytes) :
    readEscape (octalByte (b.toNat / 64))
      (octalByte (b.toNat / 8) :: octalByte b.toNat :: rest) = (b, rest) := by
  have hlt : b.toNat < 256 := b.toNat_lt
  have hvalue : (b.toNat / 64 % 8 * 8 + b.toNat / 8 % 8) * 8 + b.toNat % 8 = b.toNat := by
    omega
  simp only [readEscape, octalValue?_octalByte, readDigits, hvalue]
  simp

theorem readEscape_short {b e : UInt8} (h : shortEscapes.lookup b = some e) (rest : Bytes) :
    readEscape e rest = (b, rest) := by
  have hmem : (b, e) ∈ shortEscapes := by
    obtain ⟨before, after, hsplit, -⟩ := List.lookup_eq_some_iff.mp h
    rw [hsplit]
    exact List.mem_append_right before List.mem_cons_self
  simp only [shortEscapes, List.mem_cons, Prod.mk.injEq, List.not_mem_nil, or_false] at hmem
  rcases hmem with ⟨rfl, rfl⟩ | ⟨rfl, rfl⟩ | ⟨rfl, rfl⟩ | ⟨rfl, rfl⟩ | ⟨rfl, rfl⟩ | ⟨rfl, rfl⟩
  all_goals rfl

theorem unescapeFrom_nil (fuel : Nat) : unescapeFrom fuel [] = [] := by
  cases fuel <;> rfl

theorem unescapeFrom_literal {b : UInt8} (h : b ≠ 0x5C) (fuel : Nat) (rest : Bytes) :
    unescapeFrom (fuel + 1) (b :: rest) = b :: unescapeFrom fuel rest := by
  cases rest with
  | nil => rw [unescapeFrom_nil, unescapeFrom]
  | cons e rest => simp [unescapeFrom, h]

theorem unescapeFrom_backslash (fuel : Nat) (e : UInt8) (rest : Bytes) :
    unescapeFrom (fuel + 1) (0x5C :: e :: rest) =
      (readEscape e rest).1 :: unescapeFrom fuel (readEscape e rest).2 := by
  simp [unescapeFrom]

theorem unescapeFrom_escapedBytes (b : UInt8) (fuel : Nat) (rest : Bytes) :
    unescapeFrom (fuel + 1) (escapedBytes b ++ rest) = b :: unescapeFrom fuel rest := by
  rw [escapedBytes_eq]
  split
  · next h =>
      refine unescapeFrom_literal ?_ fuel rest
      rintro rfl
      exact absurd h (by decide)
  split
  · next e he =>
      rw [List.cons_append, List.cons_append, List.nil_append, unescapeFrom_backslash,
        readEscape_short he]
  · simp only [List.cons_append, List.nil_append, unescapeFrom_backslash, readEscape_octal]

/-! ## All bytes -/

theorem unescapeFrom_flatMap (bytes : Bytes) {fuel : Nat} (h : bytes.length ≤ fuel) :
    unescapeFrom fuel (bytes.flatMap escapedBytes) = bytes := by
  induction bytes generalizing fuel with
  | nil => exact unescapeFrom_nil fuel
  | cons b bytes ih =>
      obtain ⟨fuel, rfl⟩ := Nat.exists_eq_succ_of_ne_zero (Nat.ne_zero_of_lt h)
      rw [List.flatMap_cons, unescapeFrom_escapedBytes, ih (Nat.le_of_succ_le_succ h)]

theorem length_le_length_flatMap (bytes : Bytes) :
    bytes.length ≤ (bytes.flatMap escapedBytes).length := by
  induction bytes with
  | nil => simp
  | cons b bytes ih =>
      have hpos := List.length_pos_iff.mpr (escapedBytes_ne_nil b)
      rw [List.flatMap_cons, List.length_append, List.length_cons]
      omega

theorem unescape_escape (bytes : Bytes) : unescape (escape bytes) = bytes := by
  rw [unescape, encode_escape]
  exact unescapeFrom_flatMap bytes (length_le_length_flatMap bytes)

theorem escape_injective : Function.Injective escape :=
  Function.LeftInverse.injective unescape_escape

theorem formatDefault_bytes_eq_self_iff (raw : String) :
    formatDefault raw (.scalar .bytes) = .ok raw ↔ ∃ bytes, raw = escape bytes := by
  rw [formatDefault, formatScalar, Except.ok.injEq]
  constructor
  · intro h
    exact ⟨unescape raw, h.symm⟩
  · rintro ⟨bytes, rfl⟩
    rw [unescape_escape]

/-- Escaped bytes are printable and read back as themselves, so different bytes have
different texts, and these texts are exactly the defaults of bytes that stay as they are. -/
theorem escape_reads_back :
    (∀ bytes : Bytes, ∀ c ∈ (escape bytes).toList, 0x20 ≤ c.toNat ∧ c.toNat ≤ 0x7E) ∧
    (∀ bytes : Bytes, unescape (escape bytes) = bytes) ∧
    Function.Injective escape ∧
    ∀ raw, formatDefault raw (.scalar .bytes) = .ok raw ↔ ∃ bytes, raw = escape bytes := by
  refine ⟨fun bytes c hc => ?_, unescape_escape, escape_injective,
    formatDefault_bytes_eq_self_iff⟩
  rw [escape, String.toList_ofList, List.mem_flatMap] at hc
  obtain ⟨b, -, hb⟩ := hc
  exact escapeByte_printable b c hb

theorem escape_reads_back_before_digit :
    escape [0x01, 0x37, 0xFF] = "\\0017\\377" ∧
    ('7' ∈ (escape [0x01, 0x37, 0xFF]).toList ∧ 0x20 ≤ '7'.toNat ∧ '7'.toNat ≤ 0x7E) ∧
    unescape "\\0017\\377" = [0x01, 0x37, 0xFF] ∧
    escape [0x01, 0x37] ≠ escape [0x0F] ∧
    formatDefault "\\0017\\377" (.scalar .bytes) = .ok "\\0017\\377" := by
  obtain ⟨hprintable, hreads, hinjective, hkept⟩ := escape_reads_back
  have htext : escape [0x01, 0x37, 0xFF] = "\\0017\\377" := by decide
  have hmem : '7' ∈ (escape [0x01, 0x37, 0xFF]).toList := by
    rw [htext]
    decide
  refine ⟨htext, ⟨hmem, hprintable _ '7' hmem⟩, ?_, hinjective.ne (by decide), ?_⟩
  · rw [← htext]
    exact hreads _
  · exact (hkept _).mpr ⟨_, htext.symm⟩

end Wire

end SchemaGo
