import Mathlib.Algebra.GroupWithZero.Nat
import Mathlib.Algebra.Order.BigOperators.Group.List
import Mathlib.Algebra.Order.Group.Nat
import Mathlib.Data.List.Basic
import SchemaGo.Text.Split

/-!
# Struct tags

The tag of a struct field is a sequence of pairs `key:"value"` with a space between
them, in which the quotes and backslashes of a value are escaped and which are all on
one line.  The reader accepts exactly the texts of pairs.  A text that leaves out some
of the backslashes is shorter than it should be, so it is the text of its pairs only if
none is missing.
-/

namespace SchemaGo.StructTag

/-! ## The text of pairs -/

def backquote : Char := '\x60'

def isKeyChar (c : Char) : Bool :=
  ' ' < c && c != ':' && c != '"' && c != '\x7f' && c != backquote

def isKey (key : List Char) : Bool := !key.isEmpty && key.all isKeyChar

def needsEscape (c : Char) : Bool := c == '"' || c == '\\'

def isInline (c : Char) : Bool := c != '\n' && c != '\r'

def isPair (pair : String × String) : Bool := isKey pair.1.toList && pair.2.toList.all isInline

def isLiteral (c : Char) : Bool := c != backquote && isInline c

def isPlainChar (c : Char) : Bool := !needsEscape c && isLiteral c

def isPlain (s : String) : Bool := s.toList.all isPlainChar

/-- The text stands for itself as soon as its quotes are escaped. -/
def isQuotable (s : String) : Bool := s.toList.all fun c => c != '\\' && isLiteral c

theorem isQuotable_of_isPlain {s : String} (h : isPlain s) : isQuotable s := by
  refine List.all_eq_true.mpr fun c hc => ?_
  have hplain := List.all_eq_true.mp h c hc
  simp_all [isPlainChar, needsEscape]

def escapeChar (c : Char) : List Char := if needsEscape c then ['\\', c] else [c]

def writePair (pair : String × String) : List Char :=
  pair.1.toList ++ ':' :: '"' :: (pair.2.toList.flatMap escapeChar ++ ['"'])

def write (pairs : List (String × String)) : List Char :=
  List.intercalate [' '] (pairs.map writePair)

theorem all_intercalate (test : Char → Bool) (sep : Char) (hsep : test sep)
    (parts : List (List Char)) :
    (List.intercalate [sep] parts).all test = parts.all fun part => part.all test := by
  induction parts with
  | nil => rfl
  | cons part rest ih =>
      cases rest with
      | nil => simp
      | cons second more =>
          rw [List.intercalate_cons_cons, List.all_append, List.all_append, ih, List.all_cons]
          simp [hsep]

theorem backquote_not_mem_iff (text : List Char) :
    backquote ∉ text ↔ text.all (· != backquote) := by
  simp only [List.all_eq_true, bne_iff_ne]
  constructor
  · rintro h c hc rfl
    exact h hc
  · intro h hmem
    exact h backquote hmem rfl

/-! ## The reader -/

def readValue? : List Char → Option (List Char × List Char)
  | [] => none
  | '"' :: rest => some ([], rest)
  | '\\' :: c :: rest =>
    if needsEscape c then (readValue? rest).map fun (value, rest) => (c :: value, rest) else none
  | '\\' :: [] => none
  | c :: rest => (readValue? rest).map fun (value, rest) => (c :: value, rest)

def readPair? (text : List Char) : Option ((String × String) × List Char) :=
  let key := text.takeWhile isKeyChar
  match text.dropWhile isKeyChar with
  | ':' :: '"' :: rest =>
    if key.isEmpty then none
    else ((readValue? rest).filter fun (value, _) => value.all isInline).map fun (value, rest) =>
      ((String.ofList key, String.ofList value), rest)
  | _ => none

/-- A pair takes at least one character, so the fuel never runs out before the text. -/
def readPairs? : Nat → List Char → Option (List (String × String))
  | 0, _ => none
  | fuel + 1, text =>
    match readPair? text with
    | some (pair, []) => some [pair]
    | some (pair, ' ' :: rest) => (readPairs? fuel rest).map (pair :: ·)
    | _ => none

def read? (text : String) : Option (List (String × String)) :=
  readPairs? text.toList.length text.toList

/-! ## Reading what was written -/

theorem readValue?_escape (value rest : List Char) :
    readValue? (value.flatMap escapeChar ++ '"' :: rest) = some (value, rest) := by
  induction value with
  | nil => rfl
  | cons c value ih =>
      rw [List.flatMap_cons, List.append_assoc]
      by_cases hquote : c = '"'
      · subst hquote
        simp [escapeChar, needsEscape, readValue?, ih]
      by_cases hbackslash : c = '\\'
      · subst hbackslash
        simp [escapeChar, needsEscape, readValue?, ih]
      simp [escapeChar, needsEscape, readValue?, hquote, hbackslash, ih]

theorem escape_of_readValue? {text value rest : List Char}
    (h : readValue? text = some (value, rest)) :
    text = value.flatMap escapeChar ++ '"' :: rest := by
  fun_induction readValue? text generalizing value rest with
  | case1 => cases h
  | case2 tail =>
      cases h
      rfl
  | case3 c tail hc ih =>
      obtain ⟨⟨read, remaining⟩, hread, heq⟩ := Option.map_eq_some_iff.mp h
      cases heq
      simp [escapeChar, hc, ih hread]
  | case4 => cases h
  | case5 => cases h
  | case6 c tail hquote hescape hend ih =>
      obtain ⟨⟨read, remaining⟩, hread, heq⟩ := Option.map_eq_some_iff.mp h
      cases heq
      have hbackslash : c ≠ '\\' := by
        intro hc
        cases tail with
        | nil => exact hend hc rfl
        | cons first more => exact hescape first more hc rfl
      have hplain : needsEscape c = false := by
        simpa [needsEscape, hbackslash] using hquote
      simp [escapeChar, hplain, ih hread]

theorem readPair?_writePair {pair : String × String} (h : isPair pair) (rest : List Char) :
    readPair? (writePair pair ++ rest) = some (pair, rest) := by
  obtain ⟨key, value⟩ := pair
  obtain ⟨hkey, hvalue⟩ := Bool.and_eq_true_iff.mp h
  obtain ⟨hempty, hall⟩ := Bool.and_eq_true_iff.mp hkey
  have hchars : ∀ c ∈ key.toList, isKeyChar c := List.all_eq_true.mp hall
  have htake : ∀ behind, (key.toList ++ ':' :: behind).takeWhile isKeyChar = key.toList := by
    intro behind
    rw [List.takeWhile_append_of_pos hchars, List.takeWhile_cons_of_neg (by decide),
      List.append_nil]
  have hdrop : ∀ behind, (key.toList ++ ':' :: behind).dropWhile isKeyChar = ':' :: behind := by
    intro behind
    rw [List.dropWhile_append_of_pos hchars, List.dropWhile_cons_of_neg (by decide)]
  have hnonempty : key.toList.isEmpty = false := by simpa using hempty
  have hinline : ∀ c ∈ value.toList, isInline c := List.all_eq_true.mp hvalue
  simpa [readPair?, writePair, htake, hdrop, hnonempty, readValue?_escape] using hinline

theorem writePair_of_readPair? {text rest : List Char} {pair : String × String}
    (h : readPair? text = some (pair, rest)) :
    isPair pair ∧ text = writePair pair ++ rest := by
  simp only [readPair?] at h
  split at h
  · rename_i behind hdrop
    split at h
    · cases h
    · rename_i hempty
      obtain ⟨⟨value, tail⟩, hread, heq⟩ := Option.map_eq_some_iff.mp h
      obtain ⟨hvalue, hinline⟩ := Option.filter_eq_some_iff.mp hread
      cases heq
      constructor
      · simpa [isPair, isKey, hinline] using hempty
      · calc
          text = text.takeWhile isKeyChar ++ ':' :: '"' :: behind := by
            rw [← hdrop, List.takeWhile_append_dropWhile]
          _ = _ := by
            rw [escape_of_readValue? hvalue]
            simp [writePair]
  · cases h

theorem write_cons (pair : String × String) {pairs : List (String × String)} (h : pairs ≠ []) :
    write (pair :: pairs) = writePair pair ++ ' ' :: write pairs := by
  cases pairs with
  | nil => exact absurd rfl h
  | cons second more =>
      rw [write, List.map_cons, List.map_cons, List.intercalate_cons_cons, List.append_assoc]
      rfl

theorem write_singleton (pair : String × String) : write [pair] = writePair pair := by
  simp [write]

theorem readPairs?_write {pairs : List (String × String)} (hne : pairs ≠ [])
    (hpairs : ∀ pair ∈ pairs, isPair pair) {fuel : Nat} (hfuel : pairs.length ≤ fuel) :
    readPairs? fuel (write pairs) = some pairs := by
  induction pairs generalizing fuel with
  | nil => exact absurd rfl hne
  | cons pair rest ih =>
      obtain ⟨hpair, hpairs⟩ := List.forall_mem_cons.mp hpairs
      cases fuel with
      | zero => simp at hfuel
      | succ fuel =>
          rw [readPairs?]
          cases rest with
          | nil =>
              have hlast := readPair?_writePair hpair []
              rw [List.append_nil] at hlast
              rw [write_singleton, hlast]
          | cons second more =>
              have hmore := ih (by simp) hpairs (by simpa using hfuel)
              rw [write_cons pair (by simp), readPair?_writePair hpair]
              simp [hmore]

theorem write_of_readPairs? {fuel : Nat} {text : List Char} {pairs : List (String × String)}
    (h : readPairs? fuel text = some pairs) :
    pairs ≠ [] ∧ (∀ pair ∈ pairs, isPair pair) ∧ text = write pairs := by
  induction fuel generalizing text pairs with
  | zero => cases h
  | succ fuel ih =>
      rw [readPairs?] at h
      split at h
      · rename_i pair hread
        cases h
        obtain ⟨hpair, htext⟩ := writePair_of_readPair? hread
        simp [hpair, htext, write_singleton]
      · rename_i pair rest hread
        obtain ⟨hpair, htext⟩ := writePair_of_readPair? hread
        obtain ⟨others, hothers, rfl⟩ := Option.map_eq_some_iff.mp h
        obtain ⟨hne, hpairs, hrest⟩ := ih hothers
        refine ⟨by simp, List.forall_mem_cons.mpr ⟨hpair, hpairs⟩, ?_⟩
        rw [write_cons pair hne, htext, hrest]
      · cases h

theorem length_le_length_write (pairs : List (String × String)) :
    pairs.length ≤ (write pairs).length := by
  induction pairs with
  | nil => simp
  | cons pair rest ih =>
      cases rest with
      | nil =>
          simp only [write_singleton, writePair, List.length_append, List.length_cons]
          omega
      | cons second more =>
          rw [write_cons pair (by simp)]
          simp only [List.length_append, List.length_cons] at ih ⊢
          omega

/-- The reader accepts the texts of pairs with proper keys and values on one line, and nothing
else. -/
theorem read?_eq_some_iff {text : String} {pairs : List (String × String)} :
    read? text = some pairs ↔
      pairs ≠ [] ∧ (∀ pair ∈ pairs, isPair pair) ∧ text.toList = write pairs := by
  constructor
  · exact write_of_readPairs?
  · rintro ⟨hne, hpairs, htext⟩
    rw [read?, htext]
    exact readPairs?_write hne hpairs (length_le_length_write pairs)

/-! ## Missing escapes -/

structure Draft where
  key : String
  value : String
  escapesQuotes : Bool
deriving DecidableEq, Repr

namespace Draft

def pair (draft : Draft) : String × String := (draft.key, draft.value)

def bare (pair : String × String) : Draft := ⟨pair.1, pair.2, false⟩

def quoted (pair : String × String) : Draft := ⟨pair.1, pair.2, true⟩

def bodyChar (draft : Draft) (c : Char) : List Char :=
  if draft.escapesQuotes && c == '"' then ['\\', c] else [c]

def text (draft : Draft) : List Char :=
  draft.key.toList ++ ':' :: '"' :: (draft.value.toList.flatMap draft.bodyChar ++ ['"'])

/-- The character needs a backslash and does not get it. -/
def lacksEscape (draft : Draft) (c : Char) : Bool :=
  needsEscape c && !(draft.escapesQuotes && c == '"')

def missing (draft : Draft) : Nat := draft.value.toList.countP draft.lacksEscape

theorem escapeChar_eq (draft : Draft) (c : Char) :
    escapeChar c = if draft.lacksEscape c then '\\' :: draft.bodyChar c else draft.bodyChar c := by
  rw [escapeChar, bodyChar, lacksEscape]
  cases hneeds : needsEscape c <;> cases hquote : draft.escapesQuotes && c == '"' <;>
    simp_all [needsEscape]

theorem length_escape (draft : Draft) (cs : List Char) :
    (cs.flatMap escapeChar).length =
      (cs.flatMap draft.bodyChar).length + cs.countP draft.lacksEscape := by
  induction cs with
  | nil => rfl
  | cons c cs ih =>
      have hchar : (escapeChar c).length =
          (draft.bodyChar c).length + if draft.lacksEscape c then 1 else 0 := by
        rw [draft.escapeChar_eq]
        split <;> simp
      simp only [List.flatMap_cons, List.length_append, List.countP_cons, ih, hchar]
      omega

theorem length_writePair (draft : Draft) :
    (writePair draft.pair).length = draft.text.length + draft.missing := by
  have hbody := draft.length_escape draft.value.toList
  simp only [writePair, pair, text, missing, List.length_append, List.length_cons, hbody]
  omega

theorem text_eq_writePair {draft : Draft} (h : draft.missing = 0) :
    draft.text = writePair draft.pair := by
  have hbody : draft.value.toList.flatMap draft.bodyChar =
      draft.value.toList.flatMap escapeChar := by
    refine List.flatMap_congr fun c hc => ?_
    have hlacks := List.countP_eq_zero.mp h c hc
    rw [draft.escapeChar_eq, if_neg hlacks]
  rw [text, writePair, hbody]
  rfl

def isSafe (draft : Draft) : Bool :=
  isKey draft.key.toList && draft.value.toList.all fun c => !draft.lacksEscape c && isLiteral c

theorem isSafe_bare (pair : String × String) :
    (bare pair).isSafe = (isKey pair.1.toList && isPlain pair.2) := by
  have hchar : ∀ c, (!(bare pair).lacksEscape c && isLiteral c) = isPlainChar c := by
    intro c
    simp [lacksEscape, bare, isPlainChar]
  simp only [isSafe, hchar]
  rfl

theorem isSafe_quoted (pair : String × String) :
    (quoted pair).isSafe = (isKey pair.1.toList && isQuotable pair.2) := by
  have hchar : ∀ c, (!(quoted pair).lacksEscape c) = (c != '\\') := by
    intro c
    by_cases hquote : c = '"'
    · subst hquote
      rfl
    · have hne : (c == '"') = false := beq_eq_false_iff_ne.mpr hquote
      simp [lacksEscape, quoted, needsEscape, hne, bne]
  simp only [isSafe, hchar]
  rfl

theorem all_ne_backquote_text {draft : Draft} (hkey : isKey draft.key.toList) :
    draft.text.all (· != backquote) = draft.value.toList.all (· != backquote) := by
  have hchars : draft.key.toList.all (· != backquote) = true := by
    obtain ⟨-, hall⟩ := Bool.and_eq_true_iff.mp hkey
    refine List.all_eq_true.mpr fun c hc => ?_
    exact (Bool.and_eq_true_iff.mp (List.all_eq_true.mp hall c hc)).2
  have hbody : ∀ c, (draft.bodyChar c).all (· != backquote) = (c != backquote) := by
    intro c
    rw [bodyChar]
    split <;> simp [backquote]
  simp only [text, List.all_append, List.all_cons, List.all_flatMap, hchars, hbody]
  simp [backquote]

theorem isSafe_iff (draft : Draft) :
    draft.isSafe ↔ isPair draft.pair ∧ draft.missing = 0 ∧ backquote ∉ draft.text := by
  have hvalue : (draft.value.toList.all fun c => !draft.lacksEscape c && isLiteral c) ↔
      draft.missing = 0 ∧ draft.value.toList.all (· != backquote) ∧
        draft.value.toList.all isInline := by
    simp only [missing, isLiteral, List.countP_eq_zero, List.all_eq_true, Bool.and_eq_true,
      Bool.not_eq_true', Bool.not_eq_true, forall_and]
  rw [isSafe, isPair, Bool.and_eq_true_iff, Bool.and_eq_true_iff, hvalue, backquote_not_mem_iff]
  constructor
  · rintro ⟨hkey, hmissing, hquote, hinline⟩
    exact ⟨⟨hkey, hinline⟩, hmissing, (all_ne_backquote_text hkey).trans hquote⟩
  · rintro ⟨⟨hkey, hinline⟩, hmissing, htext⟩
    exact ⟨hkey, hmissing, (all_ne_backquote_text hkey).symm.trans htext, hinline⟩

end Draft

def join (drafts : List Draft) : List Char := List.intercalate [' '] (drafts.map Draft.text)

theorem length_write (drafts : List Draft) :
    (write (drafts.map Draft.pair)).length =
      (join drafts).length + (drafts.map Draft.missing).sum := by
  induction drafts with
  | nil => rfl
  | cons draft rest ih =>
      cases rest with
      | nil => simp [write, join, draft.length_writePair]
      | cons second more =>
          have hne : (second :: more).map Draft.pair ≠ [] := by simp
          have hjoin : join (draft :: second :: more) =
              draft.text ++ ' ' :: join (second :: more) := by
            simp [join, List.intercalate_cons_cons]
          have hsum : ((draft :: second :: more).map Draft.missing).sum =
              draft.missing + ((second :: more).map Draft.missing).sum := by
            rw [List.map_cons, List.sum_cons]
          rw [List.map_cons, write_cons draft.pair hne, hjoin, hsum]
          simp only [List.length_append, List.length_cons, draft.length_writePair, ih]
          omega

theorem join_eq_write_iff (drafts : List Draft) :
    join drafts = write (drafts.map Draft.pair) ↔ ∀ draft ∈ drafts, draft.missing = 0 := by
  constructor
  · intro heq
    have hlength := length_write drafts
    rw [heq] at hlength
    have hsum : (drafts.map Draft.missing).sum = 0 := by omega
    intro draft hdraft
    have hle : draft.missing ≤ (drafts.map Draft.missing).sum :=
      List.le_sum_of_mem (List.mem_map_of_mem hdraft)
    omega
  · intro hmissing
    rw [join, write, List.map_map]
    congr 1
    exact List.map_congr_left fun draft hdraft => Draft.text_eq_writePair (hmissing draft hdraft)

/-- Drafts are read back from their text if and only if all of them are safe. -/
theorem read?_join_iff {drafts : List Draft} (hne : drafts ≠ []) :
    (backquote ∉ join drafts ∧
      read? (String.ofList (join drafts)) = some (drafts.map Draft.pair)) ↔
    ∀ draft ∈ drafts, draft.isSafe := by
  have hmem : backquote ∉ join drafts ↔ ∀ draft ∈ drafts, backquote ∉ draft.text := by
    simp only [backquote_not_mem_iff, join]
    rw [all_intercalate (· != backquote) ' ' (by decide)]
    simp [List.all_eq_true]
  have hpairs : (∀ pair ∈ drafts.map Draft.pair, isPair pair) ↔
      ∀ draft ∈ drafts, isPair draft.pair := List.forall_mem_map
  have hnonempty : drafts.map Draft.pair ≠ [] := by simpa using hne
  rw [read?_eq_some_iff, String.toList_ofList, join_eq_write_iff, hmem, hpairs]
  simp only [Draft.isSafe_iff]
  constructor
  · rintro ⟨hquote, -, hpair, hmissing⟩ draft hdraft
    exact ⟨hpair draft hdraft, hmissing draft hdraft, hquote draft hdraft⟩
  · intro hsafe
    exact ⟨fun draft hdraft => (hsafe draft hdraft).2.2, hnonempty,
      fun draft hdraft => (hsafe draft hdraft).1, fun draft hdraft => (hsafe draft hdraft).2.1⟩

end SchemaGo.StructTag
