import Mathlib.Data.List.TakeWhile
import SchemaGo.Comment.Directive

/-!
# Reading directives back

A comment is a run of lines, and each line holds one directive or none.  `Written` says
how a list of directives can be laid out as a comment: every directive on a line of its
own with blanks around its parts, prose between them, and line ends of either kind.  The
parser returns a list exactly when the comment is one of its layouts.
-/

namespace SchemaGo

/-! ## Trimmed texts -/

namespace Text

def isTrimmed (cs : List Char) : Bool :=
  (cs.head?.all fun c => !isBlank c) && cs.getLast?.all fun c => !isBlank c

theorem dropWhile_of_head? {cs : List Char} (h : cs.head?.all fun c => !isBlank c) :
    cs.dropWhile isBlank = cs := by
  cases cs with
  | nil => rfl
  | cons c cs =>
      simp only [List.head?_cons, Option.all_some, Bool.not_eq_true'] at h
      simp [h]

theorem head?_dropWhile (cs : List Char) :
    (cs.dropWhile isBlank).head?.all fun c => !isBlank c := by
  have h := List.head?_dropWhile_not isBlank cs
  cases hhead : (cs.dropWhile isBlank).head? with
  | none => rfl
  | some c => simpa [hhead] using h

@[simp] theorem trim_nil : trim [] = [] := rfl

theorem trimEnd_append {cs after : List Char} (hafter : after.all isBlank)
    (hlast : cs.getLast?.all fun c => !isBlank c) : trimEnd (cs ++ after) = cs := by
  have hblank : ∀ c ∈ after.reverse, isBlank c := by
    simpa using hafter
  rw [trimEnd, List.reverse_append, List.dropWhile_append_of_pos hblank,
    dropWhile_of_head? (by rwa [List.head?_reverse]), List.reverse_reverse]

theorem trim_of_isTrimmed {before core after : List Char} (hbefore : before.all isBlank)
    (hcore : isTrimmed core) (hafter : after.all isBlank) :
    trim (before ++ core ++ after) = core := by
  rw [isTrimmed, Bool.and_eq_true] at hcore
  have hblank : ∀ c ∈ before, isBlank c := by simpa using hbefore
  rw [trim, trimStart, List.append_assoc, List.dropWhile_append_of_pos hblank]
  cases core with
  | nil =>
      have hnil : after.dropWhile isBlank = [] := by simpa using hafter
      rw [List.nil_append, hnil]
      rfl
  | cons c core =>
      rw [dropWhile_of_head? (by simpa using hcore.1)]
      exact trimEnd_append hafter hcore.2

theorem exists_trim (cs : List Char) :
    ∃ before after, before.all isBlank ∧ after.all isBlank ∧ isTrimmed (trim cs) ∧
      cs = before ++ trim cs ++ after := by
  have hstart := List.takeWhile_append_dropWhile (p := isBlank) (l := cs)
  have hend : trim cs ++ ((trimStart cs).reverse.takeWhile isBlank).reverse = trimStart cs := by
    rw [trim, trimEnd, ← List.reverse_append, List.takeWhile_append_dropWhile,
      List.reverse_reverse]
  have htrimmed : isTrimmed (trim cs) := by
    rw [isTrimmed, Bool.and_eq_true]
    constructor
    · cases htrim : trim cs with
      | nil => rfl
      | cons c rest =>
          have hhead := head?_dropWhile cs
          rw [← trimStart, ← hend, htrim] at hhead
          exact hhead
    · rw [trim, trimEnd, List.getLast?_reverse]
      exact head?_dropWhile _
  refine ⟨cs.takeWhile isBlank, ((trimStart cs).reverse.takeWhile isBlank).reverse, ?_, ?_,
    htrimmed, ?_⟩
  · exact List.all_takeWhile
  · rw [List.all_reverse]
    exact List.all_takeWhile
  · rw [List.append_assoc, hend, trimStart, hstart]

theorem trim_around {before after : List Char} (hbefore : before.all isBlank)
    (hafter : after.all isBlank) (cs : List Char) : trim (before ++ cs ++ after) = trim cs := by
  obtain ⟨front, back, hfront, hback, htrimmed, heq⟩ := exists_trim cs
  generalize trim cs = core at htrimmed heq ⊢
  subst heq
  have houter : (before ++ front).all isBlank ∧ (back ++ after).all isBlank := by
    simp only [List.all_append, hbefore, hfront, hback, hafter, Bool.and_self, and_self]
  have hsplit : before ++ (front ++ core ++ back) ++ after =
      (before ++ front) ++ core ++ (back ++ after) := by
    simp only [List.append_assoc]
  rw [hsplit]
  exact trim_of_isTrimmed houter.1 htrimmed houter.2

/-! ## Lines of a text -/

theorem linesFrom_append {line : List Char} (h : '\n' ∉ line) (reversed rest : List Char) :
    linesFrom reversed (line ++ rest) = linesFrom (line.reverse ++ reversed) rest := by
  induction line generalizing reversed with
  | nil => rfl
  | cons c line ih =>
      rw [List.mem_cons, not_or] at h
      rw [List.cons_append, linesFrom, if_neg (Ne.symm h.1), ih h.2, List.reverse_cons,
        List.append_assoc, List.singleton_append]

theorem lines_of_not_mem {line : List Char} (h : '\n' ∉ line) :
    lines line = if line.isEmpty then [] else [line] := by
  have hlines := linesFrom_append h [] []
  rw [List.append_nil, List.append_nil] at hlines
  rw [lines, hlines, linesFrom, List.isEmpty_reverse, List.reverse_reverse]

theorem lines_append_newline {line : List Char} (h : '\n' ∉ line) (rest : List Char) :
    lines (line ++ '\n' :: rest) = (dropCarriageReturn line.reverse).reverse :: lines rest := by
  rw [lines, linesFrom_append h, List.append_nil, linesFrom, if_pos rfl, lines]

theorem trim_dropCarriageReturn (line : List Char) :
    trim (dropCarriageReturn line.reverse).reverse = trim line := by
  cases hrev : line.reverse with
  | nil => rw [List.reverse_eq_nil_iff.mp hrev]; rfl
  | cons c rest =>
      have hline : line = rest.reverse ++ [c] := by
        rw [← List.reverse_reverse line, hrev, List.reverse_cons]
      by_cases hc : c = '\r'
      · subst hc
        have hblank : ['\r'].all isBlank := by decide
        rw [hline, dropCarriageReturn]
        exact (trim_around (List.all_nil) hblank rest.reverse).symm
      · rw [dropCarriageReturn.eq_2 _ (by simpa using hc), hline, List.reverse_cons]

end Text

/-! ## Directives on lines -/

namespace Directive

structure WellFormed (d : Directive) : Prop where
  name_ne : d.name ≠ ""
  name_word : ∀ c ∈ d.name.toList, Text.isBlank c = false
  value_line : '\n' ∉ d.value.toList
  value_trimmed : Text.isTrimmed d.value.toList

def isGap (cs : List Char) : Bool := cs.all fun c => Text.isBlank c && c != '\n'

/-- What a line holds.  Any line is prose whose first word does not start with `@` or is
no more than that. -/
inductive OnLine : Option Directive → List Char → Prop where
  | directive {d : Directive} {before gap after : List Char} (hd : d.WellFormed)
      (hbefore : isGap before) (hgap : isGap gap) (hafter : isGap after)
      (hseparated : gap = [] → d.value = "") :
      OnLine (some d) (before ++ '@' :: d.name.toList ++ gap ++ d.value.toList ++ after)
  | prose {line : List Char} (hline : '\n' ∉ line)
      (hword : ∀ c rest, Text.trim line = '@' :: c :: rest → Text.isBlank c) :
      OnLine none line

/-- The comments that hold a list of directives.  The last line needs no end. -/
inductive Written : List Directive → List Char → Prop where
  | last {entry : Option Directive} {line : List Char} (hline : OnLine entry line) :
      Written entry.toList line
  | line {entry : Option Directive} {line lineEnd rest : List Char} {ds : List Directive}
      (hline : OnLine entry line) (hend : lineEnd = ['\n'] ∨ lineEnd = ['\r', '\n'])
      (hrest : Written ds rest) : Written (entry.toList ++ ds) (line ++ lineEnd ++ rest)

theorem all_isBlank_of_isGap {cs : List Char} (h : isGap cs) : cs.all Text.isBlank := by
  simp only [isGap, List.all_eq_true, Bool.and_eq_true] at h ⊢
  exact fun c hc => (h c hc).1

theorem not_mem_of_isGap {cs : List Char} (h : isGap cs) : '\n' ∉ cs := by
  intro hmem
  simp only [isGap, List.all_eq_true] at h
  exact absurd (h _ hmem) (by decide)

theorem isGap_of_all {cs : List Char} (hblank : cs.all Text.isBlank) (hline : '\n' ∉ cs) :
    isGap cs := by
  simp only [isGap, List.all_eq_true, Bool.and_eq_true, bne_iff_ne] at hblank ⊢
  exact fun c hc => ⟨hblank c hc, fun h => hline (h ▸ hc)⟩

theorem OnLine.newline_not_mem {entry : Option Directive} {line : List Char}
    (h : OnLine entry line) : '\n' ∉ line := by
  cases h with
  | directive hd hbefore hgap hafter _ =>
      have hname : '\n' ∉ _ := fun hmem => absurd (hd.name_word _ hmem) (by decide)
      simp [not_mem_of_isGap hbefore, not_mem_of_isGap hgap, not_mem_of_isGap hafter, hname,
        hd.value_line]
  | prose hline _ => exact hline

/-! ## One line -/

theorem ofLine?_congr {line other : List Char} (h : Text.trim line = Text.trim other) :
    ofLine? line = ofLine? other := by
  rw [ofLine?, ofLine?, h]

theorem ofLine?_eq_some_iff {line : List Char} {d : Directive} :
    ofLine? line = some d ↔ ∃ name tail, Text.trim line = '@' :: (name ++ tail) ∧ name ≠ [] ∧
      (∀ c ∈ name, Text.isBlank c = false) ∧ tail.head?.all Text.isBlank ∧
      d = ⟨String.ofList name, String.ofList (Text.trim tail)⟩ := by
  constructor
  · intro h
    rw [ofLine?] at h
    split at h
    · cases h
    · next c rest htrim =>
      dsimp only at h
      split at h
      · next hif =>
          rw [Bool.and_eq_true, decide_eq_true_eq] at hif
          refine ⟨rest.takeWhile fun c => !Text.isBlank c, rest.dropWhile fun c => !Text.isBlank c,
            ?_, ?_, ?_, ?_, (Option.some.inj h).symm⟩
          · rw [List.takeWhile_append_dropWhile, htrim, hif.1]
          · simpa using hif.2
          · intro c hc
            simpa using List.mem_takeWhile_imp hc
          · have hhead := List.head?_dropWhile_not (fun c => !Text.isBlank c) rest
            cases hdrop : (rest.dropWhile fun c => !Text.isBlank c).head? with
            | none => rfl
            | some c => simpa [hdrop] using hhead
      · cases h
  · rintro ⟨name, tail, htrim, hne, hword, htail, rfl⟩
    have hname : ∀ c ∈ name, (!Text.isBlank c) = true := by simpa using hword
    have htake : tail.takeWhile (fun c => !Text.isBlank c) = [] := by
      cases tail with
      | nil => rfl
      | cons c tail => simpa using htail
    have hdrop : tail.dropWhile (fun c => !Text.isBlank c) = tail := by
      have happend := List.takeWhile_append_dropWhile (p := fun c => !Text.isBlank c) (l := tail)
      rwa [htake, List.nil_append] at happend
    simp [ofLine?, htrim, List.takeWhile_append_of_pos hname, List.dropWhile_append_of_pos hname,
      htake, hdrop, hne]

theorem ofLine?_eq_none {line : List Char}
    (h : ∀ c rest, Text.trim line = '@' :: c :: rest → Text.isBlank c) : ofLine? line = none := by
  rw [Option.eq_none_iff_forall_ne_some]
  intro d hd
  obtain ⟨name, tail, htrim, hne, hword, -, -⟩ := ofLine?_eq_some_iff.mp hd
  obtain ⟨c, name, rfl⟩ := List.exists_cons_of_ne_nil hne
  have hblank := h c (name ++ tail) htrim
  rw [hword c List.mem_cons_self] at hblank
  cases hblank

theorem isTrimmed_of_word {cs : List Char} (h : ∀ c ∈ cs, Text.isBlank c = false) :
    Text.isTrimmed cs := by
  rw [Text.isTrimmed, Bool.and_eq_true, Option.all_eq_true, Option.all_eq_true]
  exact ⟨fun c hc => by simp [h c (List.mem_of_mem_head? hc)],
    fun c hc => by simp [h c (List.mem_of_getLast? hc)]⟩

theorem isTrimmed_cons_append {c : Char} {middle value : List Char} (hc : Text.isBlank c = false)
    (hne : value ≠ []) (hvalue : Text.isTrimmed value) :
    Text.isTrimmed (c :: (middle ++ value)) := by
  rw [Text.isTrimmed, Bool.and_eq_true] at hvalue ⊢
  rw [← List.cons_append, List.getLast?_append, List.getLast?_eq_some_getLast hne] at *
  exact ⟨by simp [hc], hvalue.2⟩

theorem ofLine?_directive {d : Directive} (hd : d.WellFormed) {before gap after : List Char}
    (hbefore : before.all Text.isBlank) (hgap : gap.all Text.isBlank)
    (hafter : after.all Text.isBlank) (hseparated : gap = [] → d.value = "") :
    ofLine? (before ++ '@' :: d.name.toList ++ gap ++ d.value.toList ++ after) = some d := by
  have hname : d.name.toList ≠ [] := by simpa using hd.name_ne
  have hat : Text.isBlank '@' = false := by decide
  by_cases hvalue : d.value.toList = []
  · have hword : ∀ c ∈ '@' :: d.name.toList, Text.isBlank c = false :=
      List.forall_mem_cons.mpr ⟨hat, hd.name_word⟩
    have hblank : (gap ++ after).all Text.isBlank := by
      rw [List.all_append, hgap, hafter, Bool.and_self]
    have htrim := Text.trim_of_isTrimmed hbefore (isTrimmed_of_word hword) hblank
    refine ofLine?_eq_some_iff.mpr ⟨d.name.toList, [], ?_, hname, hd.name_word, rfl, ?_⟩
    · simpa only [hvalue, List.append_nil, List.append_assoc] using htrim
    · rw [Text.trim_nil, ← hvalue, String.ofList_toList, String.ofList_toList]
  · have hgapne : gap ≠ [] := fun h => hvalue (by rw [hseparated h]; rfl)
    obtain ⟨c, gap, rfl⟩ := List.exists_cons_of_ne_nil hgapne
    have htrimmed : Text.isTrimmed ('@' :: (d.name.toList ++ c :: gap ++ d.value.toList)) :=
      isTrimmed_cons_append hat hvalue hd.value_trimmed
    have htrim := Text.trim_of_isTrimmed hbefore htrimmed hafter
    have htail : Text.trim (c :: gap ++ d.value.toList ++ []) = d.value.toList :=
      Text.trim_of_isTrimmed hgap hd.value_trimmed rfl
    refine ofLine?_eq_some_iff.mpr
      ⟨d.name.toList, c :: gap ++ d.value.toList, ?_, hname, hd.name_word, ?_, ?_⟩
    · simpa only [List.append_assoc, List.cons_append] using htrim
    · rw [List.all_cons, Bool.and_eq_true] at hgap
      exact hgap.1
    · rw [List.append_nil] at htail
      rw [htail, String.ofList_toList, String.ofList_toList]

theorem OnLine.ofLine?_eq {entry : Option Directive} {line : List Char} (h : OnLine entry line) :
    ofLine? line = entry := by
  cases h with
  | directive hd hbefore hgap hafter hseparated =>
      exact ofLine?_directive hd (all_isBlank_of_isGap hbefore) (all_isBlank_of_isGap hgap)
        (all_isBlank_of_isGap hafter) hseparated
  | prose _ hword => exact ofLine?_eq_none hword

theorem onLine_ofLine? {line : List Char} (h : '\n' ∉ line) : OnLine (ofLine? line) line := by
  cases hentry : ofLine? line with
  | none =>
      refine .prose h fun c rest htrim => ?_
      by_contra hblank
      simp [ofLine?, htrim, hblank] at hentry
  | some d =>
      obtain ⟨name, tail, htrim, hne, hword, hhead, rfl⟩ := ofLine?_eq_some_iff.mp hentry
      obtain ⟨before, after, hbefore, hafter, -, hline⟩ := Text.exists_trim line
      obtain ⟨gap, back, hgap, hback, hvalue, htail⟩ := Text.exists_trim tail
      generalize Text.trim tail = value at hvalue htail ⊢
      have hsplit : line = before ++ '@' :: name ++ gap ++ value ++ (back ++ after) := by
        rw [hline, htrim, htail]
        simp only [List.append_assoc, List.cons_append]
      rw [hsplit] at h ⊢
      simp only [List.mem_append, List.mem_cons, not_or] at h
      have hend : isGap (back ++ after) := by
        refine isGap_of_all ?_ (by simpa using h.2)
        rw [List.all_append, hback, hafter, Bool.and_self]
      have hseparated : gap = [] → String.ofList value = "" := by
        rintro rfl
        cases value with
        | nil => rfl
        | cons c value =>
            subst htail
            simp only [Text.isTrimmed, List.head?_cons, Option.all_some, Bool.and_eq_true] at hvalue
            have hblank : Text.isBlank c = true := by simpa using hhead
            simp [hblank] at hvalue
      have hd : WellFormed ⟨String.ofList name, String.ofList value⟩ :=
        ⟨by simpa using hne, by simpa using hword, by simpa using h.1.2, by simpa using hvalue⟩
      have honLine := OnLine.directive hd (isGap_of_all hbefore h.1.1.1.1)
        (isGap_of_all hgap h.1.1.2) hend hseparated
      simpa only [String.toList_ofList] using honLine

/-! ## Whole comments -/

theorem filterMap_lines_of_not_mem {line : List Char} (h : '\n' ∉ line) :
    (Text.lines line).filterMap ofLine? = (ofLine? line).toList := by
  rw [Text.lines_of_not_mem h]
  cases line with
  | nil => rfl
  | cons c line => simp [List.filterMap_cons]; cases ofLine? (c :: line) <;> rfl

theorem filterMap_lines_append {line : List Char} (h : '\n' ∉ line) (rest : List Char) :
    (Text.lines (line ++ '\n' :: rest)).filterMap ofLine? =
      (ofLine? line).toList ++ (Text.lines rest).filterMap ofLine? := by
  rw [Text.lines_append_newline h, List.filterMap_cons,
    ofLine?_congr (Text.trim_dropCarriageReturn line)]
  cases ofLine? line <;> rfl

theorem Written.filterMap_lines {ds : List Directive} {cs : List Char} (h : Written ds cs) :
    (Text.lines cs).filterMap ofLine? = ds := by
  induction h with
  | last hline => rw [filterMap_lines_of_not_mem hline.newline_not_mem, hline.ofLine?_eq]
  | @line entry line lineEnd rest ds hline hend hrest ih =>
      have hnewline := hline.newline_not_mem
      rcases hend with rfl | rfl
      · rw [List.append_assoc, List.singleton_append, filterMap_lines_append hnewline,
          hline.ofLine?_eq, ih]
      · have htrim : Text.trim (line ++ ['\r']) = Text.trim line :=
          Text.trim_around List.all_nil (by decide) line
        have hreturn : '\n' ∉ line ++ ['\r'] := by simp [hnewline]
        have hsplit : line ++ ['\r', '\n'] ++ rest = line ++ ['\r'] ++ '\n' :: rest := by simp
        rw [hsplit, filterMap_lines_append hreturn, ofLine?_congr htrim, hline.ofLine?_eq, ih]

theorem written_filterMap_lines (cs : List Char) :
    Written ((Text.lines cs).filterMap ofLine?) cs := by
  induction hlength : cs.length using Nat.strong_induction_on generalizing cs with
  | _ n ih =>
      by_cases hmem : '\n' ∈ cs
      · obtain ⟨line, rest, rfl, hline⟩ := List.eq_append_cons_of_mem hmem
        have hrest := ih rest.length (by simp at hlength; omega) rest rfl
        have hwritten := Written.line (onLine_ofLine? hline) (.inl rfl) hrest
        rw [filterMap_lines_append hline]
        simpa using hwritten
      · rw [filterMap_lines_of_not_mem hmem]
        exact .last (onLine_ofLine? hmem)

theorem OnLine.wellFormed {entry : Option Directive} {line : List Char} (h : OnLine entry line) :
    ∀ d ∈ entry.toList, d.WellFormed := by
  cases h with
  | directive hd => simpa using hd
  | prose => simp

theorem Written.wellFormed {ds : List Directive} {cs : List Char} (h : Written ds cs) :
    ∀ d ∈ ds, d.WellFormed := by
  induction h with
  | last hline => exact hline.wellFormed
  | line hline _ _ ih => exact List.forall_mem_append.mpr ⟨hline.wellFormed, ih⟩

/-- The parser reads back what was written: it returns a list of directives exactly when
the comment is one of the layouts of that list, and what it returns is well formed. -/
theorem parse_eq_iff_written (comment : String) :
    (∀ ds, parse comment = ds ↔ Written ds comment.toList) ∧
      ∀ d ∈ parse comment, d.WellFormed := by
  have hwritten := written_filterMap_lines comment.toList
  refine ⟨fun ds => ⟨?_, fun h => h.filterMap_lines⟩, hwritten.wellFormed⟩
  rintro rfl
  exact hwritten

/-- Line ends of both kinds, a bare `@`, a second `@` that belongs to a name, and a value
with a blank inside. -/
theorem parse_eq_iff_written_mixed :
    Written [⟨"embed", "a b"⟩, ⟨"@y", ""⟩] "Users.\r\n  @embed \t a b \r\n@ x\n@@y".toList ∧
      ⟨"embed", "a b"⟩ ∈ parse "Users.\r\n  @embed \t a b \r\n@ x\n@@y" ∧
      WellFormed ⟨"embed", "a b"⟩ := by
  have hparse : parse "Users.\r\n  @embed \t a b \r\n@ x\n@@y" =
      [⟨"embed", "a b"⟩, ⟨"@y", ""⟩] := by
    decide
  obtain ⟨hwritten, hformed⟩ := parse_eq_iff_written "Users.\r\n  @embed \t a b \r\n@ x\n@@y"
  have hmem : ⟨"embed", "a b"⟩ ∈ parse "Users.\r\n  @embed \t a b \r\n@ x\n@@y" := by
    rw [hparse]
    exact List.mem_cons_self
  exact ⟨(hwritten _).mp hparse, hmem, hformed _ hmem⟩

end Directive

end SchemaGo
