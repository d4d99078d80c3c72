import SchemaGo.Proofs.Go.StructTag

/-!
# Qualifiers in a line of code

A reader goes through a line of Go character by character and collects the words that
stand in front of a dot with a word behind it, outside of literals and not behind
another dot: a package, or a variable, that something is selected from.  Reading a text
that is put together can be split at the seam if a new word starts there.
-/

namespace SchemaGo.Go

open StructTag (backquote)

/-! ## The reader -/

/-- What a character in the line comes after. -/
inductive Place where
  | apart
  | word (name : List Char)
  | member
  | dot (name : List Char)
  | quoted
  | escaped
  | raw
deriving DecidableEq, Repr

def isNameChar (c : Char) : Bool := c.isAlphanum || c == '_'

namespace Place

def isCode : Place → Bool
  | quoted | escaped | raw => false
  | _ => true

/-- A dot keeps the word that it ends, unless that word is a member itself. -/
def next : Place → Char → Place
  | quoted, c => if c = '\\' then escaped else if c = '"' then apart else quoted
  | escaped, _ => quoted
  | raw, c => if c = backquote then apart else raw
  | place, c =>
    if c = '"' then quoted
    else if c = backquote then raw
    else if isNameChar c then
      match place with
      | apart => word [c]
      | word name => word (name ++ [c])
      | _ => member
    else if c = '.' then
      match place with
      | word name => dot name
      | _ => dot []
    else apart

def pending : Place → List String
  | dot (c :: rest) => [String.ofList (c :: rest)]
  | _ => []

end Place

def qualifiersFrom : Place → List Char → List String
  | _, [] => []
  | place, c :: rest =>
    (if isNameChar c then place.pending else []) ++ qualifiersFrom (place.next c) rest

def placeAfter (place : Place) (text : List Char) : Place := text.foldl Place.next place

def qualifiers (line : String) : List String := qualifiersFrom .apart line.toList

def endOf (text : String) : Place := placeAfter .apart text.toList

example : qualifiers "return fmt.Errorf(\"os.%d\", field.Tags.Number, values...)" =
    ["fmt", "field"] := by
  decide +kernel

theorem qualifiersFrom_append (place : Place) (text rest : List Char) :
    qualifiersFrom place (text ++ rest) =
      qualifiersFrom place text ++ qualifiersFrom (placeAfter place text) rest := by
  induction text generalizing place with
  | nil => rfl
  | cons c text ih =>
      rw [List.cons_append, qualifiersFrom, qualifiersFrom, ih, List.append_assoc]
      rfl

theorem placeAfter_append (place : Place) (text rest : List Char) :
    placeAfter place (text ++ rest) = placeAfter (placeAfter place text) rest :=
  List.foldl_append

/-! ## Seams -/

def isBreak (c : Char) : Bool := !isNameChar c && c != '.'

def startsApart (text : String) : Bool := text.toList.head?.any isBreak

theorem next_of_isBreak {place : Place} (hplace : place.isCode) {c : Char} (hc : isBreak c) :
    place.next c = Place.apart.next c := by
  simp only [isBreak, Bool.and_eq_true, Bool.not_eq_true', bne_iff_ne] at hc
  cases place <;> simp_all [Place.isCode, Place.next]

theorem read_of_startsApart {place : Place} (hplace : place.isCode) {text : String}
    (h : startsApart text) :
    qualifiersFrom place text.toList = qualifiers text ∧
      placeAfter place text.toList = endOf text := by
  rw [qualifiers, endOf]
  cases htext : text.toList with
  | nil => simp [startsApart, htext] at h
  | cons c rest =>
      have hc : isBreak c := by simpa [startsApart, htext] using h
      have hname : isNameChar c = false := by simp_all [isBreak]
      constructor
      · rw [qualifiersFrom, qualifiersFrom, next_of_isBreak hplace hc, hname]
        rfl
      · rw [placeAfter, placeAfter, List.foldl_cons, List.foldl_cons, next_of_isBreak hplace hc]

theorem startsApart_append {first : String} (h : startsApart first) (second : String) :
    startsApart (first ++ second) := by
  rw [startsApart] at h ⊢
  rw [String.toList_append]
  cases hfirst : first.toList with
  | nil => simp [hfirst] at h
  | cons c rest => simpa [hfirst] using h

/-- Texts are read one after the other if the second starts a new word. -/
def Meets (first second : String) : Prop :=
  (endOf first).isCode ∧ (endOf first = .apart ∨ startsApart second)

theorem Meets.read {first second : String} (h : Meets first second) :
    qualifiers (first ++ second) = qualifiers first ++ qualifiers second ∧
      endOf (first ++ second) = endOf second := by
  have hsecond : qualifiersFrom (endOf first) second.toList = qualifiers second ∧
      placeAfter (endOf first) second.toList = endOf second := by
    rcases h.2 with hend | hstart
    · rw [hend]
      exact ⟨rfl, rfl⟩
    · exact read_of_startsApart h.1 hstart
  rw [qualifiers, endOf, String.toList_append, qualifiersFrom_append, placeAfter_append]
  exact ⟨congrArg (qualifiers first ++ ·) hsecond.1, hsecond.2⟩

theorem qualifiers_between {first between : String} (hfirst : (endOf first).isCode)
    (hstart : startsApart between) (hend : endOf between = .apart) (second : String) :
    qualifiers (first ++ between ++ second) =
      qualifiers first ++ qualifiers between ++ qualifiers second := by
  obtain ⟨hread, hplace⟩ := Meets.read ⟨hfirst, .inr hstart⟩
  have hapart : endOf (first ++ between) = .apart := hplace.trans hend
  have hmeets : Meets (first ++ between) second := ⟨by rw [hapart]; rfl, .inl hapart⟩
  rw [hmeets.read.1, hread]

/-! ## Texts that name nothing -/

def isBland (text : String) : Bool :=
  text.toList.all fun c => c != '.' && c != '"' && c != backquote

@[simp] theorem isBland_append (first second : String) :
    isBland (first ++ second) = (isBland first && isBland second) := by
  simp only [isBland, String.toList_append, List.all_append]

theorem read_of_bland {place : Place} (hplace : place.isCode) {text : List Char}
    (h : text.all fun c => c != '.' && c != '"' && c != backquote) :
    (∀ name ∈ qualifiersFrom place text, name ∈ place.pending) ∧
      (placeAfter place text).isCode := by
  induction text generalizing place with
  | nil => exact ⟨by simp [qualifiersFrom], hplace⟩
  | cons c rest ih =>
      obtain ⟨hc, hrest⟩ := Bool.and_eq_true_iff.mp h
      simp only [Bool.and_eq_true, bne_iff_ne] at hc
      obtain ⟨⟨hdot, hquote⟩, hback⟩ := hc
      have hnext : (place.next c).isCode ∧ (place.next c).pending = [] := by
        cases place <;> simp only [Place.isCode, Bool.false_eq_true] at hplace <;>
          simp only [Place.next, hdot, hquote, hback, if_false] <;> split <;> exact ⟨rfl, rfl⟩
      obtain ⟨hnames, hcode⟩ := ih hnext.1 hrest
      refine ⟨?_, hcode⟩
      intro name hname
      rw [qualifiersFrom, List.mem_append] at hname
      rcases hname with hname | hname
      · split at hname
        · exact hname
        · simp at hname
      · have hpending := hnames name hname
        rw [hnext.2] at hpending
        simp at hpending

theorem qualifiers_of_isBland {text : String} (h : isBland text) : qualifiers text = [] := by
  have hapart : Place.apart.isCode := rfl
  exact List.eq_nil_iff_forall_not_mem.mpr fun name hname => by
    simpa [Place.pending] using (read_of_bland hapart h).1 name hname

def isDotless (text : String) : Bool := text.toList.all fun c => c != '.'

@[simp] theorem isDotless_append (first second : String) :
    isDotless (first ++ second) = (isDotless first && isDotless second) := by
  simp only [isDotless, String.toList_append, List.all_append]

theorem isDotless_of_isBland {text : String} (h : isBland text) : isDotless text := by
  simp only [isBland, isDotless, List.all_eq_true, Bool.and_eq_true] at h ⊢
  exact fun c hc => (h c hc).1.1

theorem readFrom_dotless {place : Place} (hplace : place.pending = []) {text : List Char}
    (h : text.all fun c => c != '.') : qualifiersFrom place text = [] := by
  induction text generalizing place with
  | nil => rfl
  | cons c rest ih =>
      obtain ⟨hc, hrest⟩ := Bool.and_eq_true_iff.mp h
      have hdot : c ≠ '.' := bne_iff_ne.mp hc
      have hnext : (place.next c).pending = [] := by
        cases place <;> simp only [Place.next, hdot, if_false] <;> repeat' first | rfl | split
      rw [qualifiersFrom, hplace, ite_self, List.nil_append]
      exact ih hnext hrest

theorem qualifiers_of_isDotless {text : String} (h : isDotless text) : qualifiers text = [] :=
  readFrom_dotless rfl h

/-! ## Literals -/

def isLiteral (text : String) : Bool := text.toList.all fun c => c != '"' && c != '\\'

theorem isLiteral_append (first second : String) :
    isLiteral (first ++ second) = (isLiteral first && isLiteral second) := by
  simp only [isLiteral, String.toList_append, List.all_append]

theorem readFrom_quoted {text : List Char} (h : text.all fun c => c != '"' && c != '\\')
    (rest : List Char) :
    qualifiersFrom .quoted (text ++ '"' :: rest) = qualifiersFrom .apart rest ∧
      placeAfter .quoted (text ++ '"' :: rest) = placeAfter .apart rest := by
  induction text with
  | nil => simp [qualifiersFrom, placeAfter, Place.next, Place.pending]
  | cons c text ih =>
      simp only [List.all_cons, Bool.and_eq_true, bne_iff_ne] at h
      obtain ⟨⟨hquote, hback⟩, htext⟩ := h
      simpa [qualifiersFrom, placeAfter, Place.next, Place.pending, hquote, hback] using
        ih (by simpa using htext)

theorem readFrom_raw {text : List Char} (h : backquote ∉ text) (rest : List Char) :
    qualifiersFrom .raw (text ++ backquote :: rest) = qualifiersFrom .apart rest ∧
      placeAfter .raw (text ++ backquote :: rest) = placeAfter .apart rest := by
  induction text with
  | nil => simp [qualifiersFrom, placeAfter, Place.next, Place.pending]
  | cons c text ih =>
      rw [List.mem_cons, not_or] at h
      simpa [qualifiersFrom, placeAfter, Place.next, Place.pending, Ne.symm h.1] using ih h.2

/-! ## Texts that name some words -/

/-- The text is read to its end as code, and all its qualifiers are allowed. -/
structure Within (allowed : List String) (text : String) : Prop where
  named : ∀ name ∈ qualifiers text, name ∈ allowed
  closed : (endOf text).isCode

instance (allowed : List String) (text : String) : Decidable (Within allowed text) :=
  decidable_of_iff ((∀ name ∈ qualifiers text, name ∈ allowed) ∧ (endOf text).isCode)
    ⟨fun h => ⟨h.1, h.2⟩, fun h => ⟨h.named, h.closed⟩⟩

variable {allowed : List String} {first second text : String}

theorem Within.mono (h : Within allowed text) {more : List String} (hsub : allowed ⊆ more) :
    Within more text :=
  ⟨fun name hname => hsub (h.named name hname), h.closed⟩

theorem within_of_isBland (h : isBland text) : Within allowed text :=
  ⟨by simp [qualifiers_of_isBland h], (read_of_bland rfl h).2⟩

theorem Within.append (hfirst : Within allowed first) (hsecond : Within allowed second)
    (h : endOf first = .apart ∨ startsApart second) : Within allowed (first ++ second) := by
  obtain ⟨hread, hend⟩ := Meets.read ⟨hfirst.closed, h⟩
  constructor
  · rw [hread]
    exact fun name hname =>
      (List.mem_append.mp hname).elim (hfirst.named name) (hsecond.named name)
  · rw [hend]
    exact hsecond.closed

def opens (text : String) : Bool := isBland text && endOf text == .apart

def closes (text : String) : Bool := isBland text && startsApart text

theorem Within.after (hsecond : Within allowed second) (h : opens first) :
    Within allowed (first ++ second) := by
  simp only [opens, Bool.and_eq_true, beq_iff_eq] at h
  exact (within_of_isBland h.1).append hsecond (.inl h.2)

theorem Within.before (hfirst : Within allowed first) (h : closes second) :
    Within allowed (first ++ second) := by
  simp only [closes, Bool.and_eq_true] at h
  exact hfirst.append (within_of_isBland h.1) (.inr h.2)

theorem Within.join {between : String} (hfirst : Within allowed first)
    (hsecond : Within allowed second) (h : closes between && opens between) :
    Within allowed (first ++ between ++ second) := by
  obtain ⟨hcloses, hopens⟩ := Bool.and_eq_true_iff.mp h
  rw [closes, Bool.and_eq_true] at hcloses
  rw [String.append_assoc]
  exact hfirst.append (hsecond.after hopens) (.inr (startsApart_append hcloses.2 second))

theorem within_of_skipped (h : qualifiers text = [] ∧ endOf text = .apart) :
    Within allowed text :=
  ⟨by simp [h.1], by rw [h.2]; rfl⟩

theorem read_quoted (h : isLiteral text) :
    qualifiers ("\"" ++ text ++ "\"") = [] ∧ endOf ("\"" ++ text ++ "\"") = .apart := by
  have htext : ("\"" ++ text ++ "\"").toList = '"' :: (text.toList ++ ['"']) := by simp
  rw [qualifiers, endOf, htext]
  exact readFrom_quoted h []

theorem read_raw (h : backquote ∉ text.toList) :
    qualifiers ("`" ++ text ++ "`") = [] ∧ endOf ("`" ++ text ++ "`") = .apart := by
  have htext : ("`" ++ text ++ "`").toList = backquote :: (text.toList ++ [backquote]) := by
    simp [backquote]
  rw [qualifiers, endOf, htext]
  exact readFrom_raw h []

/-! ## Selections -/

def startsName (text : String) : Bool := text.toList.head?.any isNameChar

def isWord (text : String) : Bool := startsName text && text.toList.all isNameChar

theorem next_nameChar {c : Char} (hc : isNameChar c) :
    Place.next .apart c = .word [c] ∧
      (∀ name, Place.next (.word name) c = .word (name ++ [c])) ∧
      (∀ name, Place.next (.dot name) c = .member) ∧ Place.next .member c = .member := by
  have hquote : c ≠ '"' := by
    rintro rfl
    exact absurd hc (by decide)
  have hback : c ≠ backquote := by
    rintro rfl
    exact absurd hc (by decide)
  simp [Place.next, hquote, hback, hc]

theorem readFrom_word {word : List Char} (h : word.all isNameChar) (before rest : List Char) :
    qualifiersFrom (.word before) (word ++ rest) = qualifiersFrom (.word (before ++ word)) rest ∧
      placeAfter (.word before) (word ++ rest) = placeAfter (.word (before ++ word)) rest := by
  induction word generalizing before with
  | nil => simp
  | cons c word ih =>
      obtain ⟨hc, hword⟩ := Bool.and_eq_true_iff.mp h
      simpa [qualifiersFrom, placeAfter, Place.pending, (next_nameChar hc).2.1] using
        ih hword (before ++ [c])

theorem exists_cons_of_startsName (h : startsName text) :
    ∃ c rest, text.toList = c :: rest ∧ isNameChar c := by
  cases htext : text.toList with
  | nil => simp [startsName, htext] at h
  | cons c rest => exact ⟨c, rest, rfl, by simpa [startsName, htext] using h⟩

theorem read_select {word member : String} (hword : isWord word) (hmember : startsName member) :
    qualifiers (word ++ "." ++ member) = word :: qualifiersFrom .member member.toList ∧
      endOf (word ++ "." ++ member) = placeAfter .member member.toList := by
  obtain ⟨hstarts, hall⟩ := Bool.and_eq_true_iff.mp hword
  obtain ⟨c, rest, hcons, hc⟩ := exists_cons_of_startsName hstarts
  obtain ⟨d, tail, hmemberCons, hd⟩ := exists_cons_of_startsName hmember
  have hrest : rest.all isNameChar := by
    rw [hcons] at hall
    exact (Bool.and_eq_true_iff.mp hall).2
  have hname : String.ofList (c :: rest) = word := by rw [← hcons, String.ofList_toList]
  have htext : (word ++ "." ++ member).toList = c :: (rest ++ '.' :: d :: tail) := by
    simp [hcons, hmemberCons]
  obtain ⟨hqualifiers, hplace⟩ := readFrom_word hrest [c] ('.' :: d :: tail)
  have hdot : Place.next (.word (c :: rest)) '.' = .dot (c :: rest) := rfl
  have hfirst : Place.next (.dot (c :: rest)) d = .member := (next_nameChar hd).2.2.1 _
  have hagain : Place.next .member d = .member := (next_nameChar hd).2.2.2
  have hselected : qualifiersFrom (.dot (c :: rest)) (d :: tail) =
      word :: qualifiersFrom .member (d :: tail) := by
    simp [qualifiersFrom, Place.pending, hd, hname, hfirst, hagain]
  rw [qualifiers, endOf, htext, hmemberCons]
  constructor
  · calc qualifiersFrom .apart (c :: (rest ++ '.' :: d :: tail))
        = qualifiersFrom (.word [c]) (rest ++ '.' :: d :: tail) := by
          simp [qualifiersFrom, Place.pending, (next_nameChar hc).1]
      _ = qualifiersFrom (.dot (c :: rest)) (d :: tail) := by rw [hqualifiers]; rfl
      _ = _ := hselected
  · calc placeAfter .apart (c :: (rest ++ '.' :: d :: tail))
        = placeAfter (.word [c]) (rest ++ '.' :: d :: tail) := by
          rw [placeAfter, List.foldl_cons, (next_nameChar hc).1, placeAfter]
      _ = placeAfter (.dot (c :: rest)) (d :: tail) := by rw [hplace]; rfl
      _ = placeAfter .member (d :: tail) := by
          simp only [placeAfter, List.foldl_cons, hfirst, hagain]

theorem within_select {word member : String} (hword : isWord word) (hallowed : word ∈ allowed)
    (hmember : startsName member && isBland member) : Within allowed (word ++ "." ++ member) := by
  obtain ⟨hstarts, hbland⟩ := Bool.and_eq_true_iff.mp hmember
  obtain ⟨hnames, hcode⟩ := read_of_bland (rfl : Place.member.isCode) hbland
  obtain ⟨hqualifiers, hend⟩ := read_select hword hstarts
  constructor
  · rw [hqualifiers]
    intro name hname
    rcases List.mem_cons.mp hname with rfl | hname
    · exact hallowed
    · simpa [Place.pending] using hnames name hname
  · rw [hend]
    exact hcode

end SchemaGo.Go
