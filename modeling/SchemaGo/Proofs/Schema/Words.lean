import SchemaGo.Proofs.Reading.LoadDepth

/-!
# Names in declarations

The names that a source declares are single words, and no word has a dot in it.  This holds of the
tokens of a source, and every parser leaves some of the tokens that it was given.
-/

namespace SchemaGo.Schema

/-- A name without dots: the last part of every full name that is made from it. -/
def IsSimple (name : String) : Prop := '.' ∉ name.toList

instance (name : String) : Decidable (IsSimple name) :=
  inferInstanceAs (Decidable ('.' ∉ name.toList))

/-! ## Tokens -/

def Lexeme.IsWorded : Lexeme → Prop
  | .word name => IsSimple name
  | _ => True

def Worded (tokens : List Token) : Prop := ∀ token ∈ tokens, token.lexeme.IsWorded

theorem isSimple_takeWhile (cs : List Char) :
    IsSimple (String.ofList (cs.takeWhile isWordChar)) := by
  intro h
  rw [String.toList_ofList] at h
  have hdot := List.all_eq_true.mp (List.all_takeWhile (p := isWordChar) (l := cs)) '.' h
  exact absurd hdot (by decide)

theorem isWorded_of_readInteger {cs rest : List Char} {lexeme : Lexeme}
    (h : readInteger cs = some (lexeme, rest)) : lexeme.IsWorded := by
  simp only [readInteger] at h
  split at h
  · cases h
  · obtain ⟨n, -, h⟩ := Option.map_eq_some_iff.mp h
    cases h
    trivial

theorem isWorded_of_readNumber {aggregate : Bool} {cs rest : List Char} {lexeme : Lexeme}
    (h : readNumber aggregate cs = some (lexeme, rest)) : lexeme.IsWorded := by
  have hnumber : ∀ (isInteger isMalformed : Bool) (value? : Option FloatValue) (more : List Char),
      (if isInteger then readInteger cs else if isMalformed then none
        else value?.map fun value => (Lexeme.float value, more)) = some (lexeme, rest) →
      lexeme.IsWorded := by
    intro isInteger isMalformed value? more h
    split at h
    · exact isWorded_of_readInteger h
    · split at h
      · cases h
      · obtain ⟨value, -, h⟩ := Option.map_eq_some_iff.mp h
        cases h
        trivial
  unfold readNumber at h
  dsimp only at h
  generalize exponentPart _ = power at h
  split at h
  · exact hnumber _ _ _ _ h
  · exact hnumber _ _ _ _ h

theorem isWorded_of_readLexeme {aggregate : Bool} {cs rest : List Char} {lexeme : Lexeme}
    (h : readLexeme aggregate cs = some (lexeme, rest)) : lexeme.IsWorded := by
  rw [readLexeme.eq_def] at h
  split at h
  · cases h
  · split at h
    · cases h
      exact isSimple_takeWhile _
    · split at h
      · exact isWorded_of_readNumber h
      · split at h
        · obtain ⟨bytes, -, h⟩ := Option.map_eq_some_iff.mp h
          cases h
          trivial
        · split at h
          · cases h
            trivial
          · cases h

theorem worded_of_tokensFrom {fuel depth : Nat} {previous : Option Lexeme}
    {trivia final : List Trivia} {cs : List Char} {tokens : List Token}
    (h : tokensFrom fuel depth previous trivia cs = some (tokens, final)) : Worded tokens := by
  induction fuel generalizing depth previous trivia cs tokens final with
  | zero => cases h
  | succ fuel ih =>
      rw [tokensFrom.eq_def] at h
      dsimp only at h
      split at h
      · cases h
        simp [Worded]
      · exact ih h
      · exact ih h
      · split at h
        · exact ih h
        · cases h
      · split at h
        · exact ih h
        · split at h
          · exact ih h
          · split at h
            · cases h
            · rename_i lexeme rest hlexeme
              split at h
              · rename_i more final' hmore
                cases h
                intro token htoken
                rcases List.mem_cons.mp htoken with rfl | htoken
                · exact isWorded_of_readLexeme hlexeme
                · exact ih hmore token htoken
              · cases h

theorem worded_of_tokens? {source : String} {tokens : List Token}
    (h : tokens? source = some tokens) : Worded tokens := by
  obtain ⟨⟨tokens, final⟩, hrun, rfl⟩ := Option.map_eq_some_iff.mp h
  exact worded_of_tokensFrom hrun

/-! ## Parsers -/

namespace Parser

variable {α β σ : Type}

/-- From simple words the parser makes something that is accepted, and leaves simple words. -/
def Reads (parser : Parser α) (accepts : α → Prop) : Prop :=
  ∀ tokens, Worded tokens → ∀ result rest, parser tokens = some (result, rest) →
    Worded rest ∧ accepts result

def Keeps (parser : Parser α) : Prop := Reads parser fun _ => True

theorem reads_pure {accepts : α → Prop} {value : α} (h : accepts value) :
    Reads (pure value) accepts := by
  intro tokens hwords result rest hrun
  cases hrun
  exact ⟨hwords, h⟩

theorem reads_failure {accepts : α → Prop} : Reads failure accepts := by
  intro tokens hwords result rest hrun
  cases hrun

theorem Reads.bind {parser : Parser α} {next : α → Parser β} {accepts' : α → Prop}
    {accepts : β → Prop} (h : Reads parser accepts')
    (hnext : ∀ value, accepts' value → Reads (next value) accepts) :
    Reads (parser >>= next) accepts := by
  intro tokens hwords result rest hrun
  have hrun : (parser tokens).bind (fun step => next step.1 step.2) = some (result, rest) := hrun
  obtain ⟨⟨value, between⟩, hfirst, hrest⟩ := Option.bind_eq_some_iff.mp hrun
  obtain ⟨hbetween, hvalue⟩ := h tokens hwords value between hfirst
  exact hnext value hvalue between hbetween result rest hrest

theorem Keeps.andThen {parser : Parser α} {next : α → Parser β} {accepts : β → Prop}
    (h : Keeps parser) (hnext : ∀ value, Reads (next value) accepts) :
    Reads (parser >>= next) accepts :=
  h.bind fun value _ => hnext value

theorem Reads.weaken {parser : Parser α} {accepts accepts' : α → Prop} (h : Reads parser accepts)
    (hweaker : ∀ result, accepts result → accepts' result) : Reads parser accepts' := by
  intro tokens hwords result rest hrun
  obtain ⟨hrest, hresult⟩ := h tokens hwords result rest hrun
  exact ⟨hrest, hweaker result hresult⟩

theorem Reads.keeps {parser : Parser α} {accepts : α → Prop} (h : Reads parser accepts) :
    Keeps parser :=
  h.weaken fun _ _ => trivial

theorem reads_get : Reads get Worded := by
  intro tokens hwords result rest hrun
  cases hrun
  exact ⟨hwords, hwords⟩

theorem keeps_set {tokens : List Token} (h : Worded tokens) : Keeps (set tokens : Parser Unit) := by
  intro before hwords result rest hrun
  cases hrun
  exact ⟨h, trivial⟩

theorem reads_check {condition : Prop} [Decidable condition] {rest : PUnit → Parser α}
    {accepts : α → Prop} (h : Reads (rest ⟨⟩) accepts) :
    Reads (if condition then failure >>= rest else rest ⟨⟩) accepts := by
  split
  · exact Keeps.andThen reads_failure fun _ => h
  · exact h

theorem Keeps.branch {test : Parser Bool} {first second : Parser α} {accepts : α → Prop}
    (htest : Keeps test) (h : Reads first accepts) (h' : Reads second accepts) :
    Reads (test >>= fun passed => if passed then first else second) accepts := by
  refine htest.andThen fun passed => ?_
  split
  · exact h
  · exact h'

@[simp] theorem keeps_pure (value : α) : Keeps (pure value) := reads_pure trivial

@[simp] theorem keeps_failure : Keeps (failure : Parser α) := reads_failure

@[simp] theorem keeps_bind {parser : Parser α} {next : α → Parser β} (h : Keeps parser)
    (hnext : ∀ value, Keeps (next value)) : Keeps (parser >>= next) :=
  h.andThen hnext

@[simp] theorem keeps_map {parser : Parser α} (f : α → β) (h : Keeps parser) :
    Keeps (f <$> parser) := by
  rw [map_eq_pure_bind]
  exact keeps_bind h fun _ => keeps_pure _

@[simp] theorem keeps_ite {condition : Prop} [Decidable condition] {first second : Parser α}
    (h : Keeps first) (h' : Keeps second) : Keeps (if condition then first else second) := by
  split
  · exact h
  · exact h'

theorem keeps_branch {test : Parser Bool} {first second : Parser α} (htest : Keeps test)
    (h : Keeps first) (h' : Keeps second) :
    Keeps (test >>= fun passed => if passed then first else second) :=
  htest.branch h h'

/-! ### Tokens and repetition -/

@[simp] theorem keeps_get : Keeps get := reads_get.keeps

theorem reads_next : Reads next Lexeme.IsWorded := by
  rw [next]
  refine reads_get.bind fun tokens hwords => ?_
  split
  · exact reads_failure
  · rename_i token rest
    have hrest : Worded rest := fun other hother => hwords other (List.mem_cons_of_mem _ hother)
    exact (keeps_set hrest).andThen fun _ => reads_pure (hwords token List.mem_cons_self)

@[simp] theorem keeps_next : Keeps next := reads_next.keeps

@[simp] theorem keeps_peek : Keeps peek := by simp [peek]

@[simp] theorem keeps_comment : Keeps comment := by simp [comment]

@[simp] theorem keeps_atEnd : Keeps atEnd := by simp [atEnd]

@[simp] theorem keeps_sees (lexeme : Lexeme) : Keeps (sees lexeme) := by simp [sees]

@[simp] theorem keeps_takes (lexeme : Lexeme) : Keeps (takes lexeme) := by simp [takes]

@[simp] theorem keeps_expect (lexeme : Lexeme) : Keeps (expect lexeme) := by simp [expect]

@[simp] theorem keeps_mark (c : Char) : Keeps (mark c) := keeps_expect _

@[simp] theorem keeps_takesMark (c : Char) : Keeps (takesMark c) := keeps_takes _

@[simp] theorem keeps_takesWord (word : String) : Keeps (takesWord word) := keeps_takes _

theorem reads_word : Reads word IsSimple := by
  rw [word]
  refine reads_next.bind fun lexeme hlexeme => ?_
  split
  · exact reads_pure hlexeme
  · exact reads_failure

@[simp] theorem keeps_word : Keeps word := reads_word.keeps

@[simp] theorem keeps_integer : Keeps integer := by
  rw [integer]
  refine keeps_bind keeps_next fun lexeme => ?_
  split <;> simp

theorem reads_stepsUntil {stop : Parser Bool} {step : σ → Parser σ} {accepts : σ → Prop}
    (hstop : Keeps stop) (hstep : ∀ state, accepts state → Reads (step state) accepts)
    (fuel : Nat) {state : σ} (hstate : accepts state) :
    Reads (stepsUntil stop step fuel state) accepts := by
  induction fuel generalizing state with
  | zero => exact reads_failure
  | succ fuel ih =>
      rw [stepsUntil]
      exact hstop.branch (reads_pure hstate)
        ((hstep state hstate).bind fun next hnext => ih hnext)

theorem reads_foldUntil {stop : Parser Bool} {step : σ → Parser σ} {accepts : σ → Prop}
    (hstop : Keeps stop) (hstep : ∀ state, accepts state → Reads (step state) accepts)
    {state : σ} (hstate : accepts state) : Reads (foldUntil stop step state) accepts :=
  keeps_get.andThen fun _ => reads_stepsUntil hstop hstep _ hstate

@[simp] theorem keeps_foldUntil {stop : Parser Bool} {step : σ → Parser σ} (hstop : Keeps stop)
    (hstep : ∀ state, Keeps (step state)) (state : σ) : Keeps (foldUntil stop step state) :=
  reads_foldUntil hstop (fun state _ => hstep state) trivial

theorem reads_itemsUntil (accepts : α → Prop) {close : Char} {item : Parser (List α)}
    (h : Reads item fun items => ∀ value ∈ items, accepts value) :
    Reads (itemsUntil close item) fun items => ∀ value ∈ items, accepts value := by
  refine reads_foldUntil (keeps_takesMark close) (fun items hitems => ?_) (by simp)
  exact h.bind fun more hmore => reads_pure (List.forall_mem_append.mpr ⟨hitems, hmore⟩)

@[simp] theorem keeps_itemsUntil {close : Char} {item : Parser (List α)} (h : Keeps item) :
    Keeps (itemsUntil close item) := by
  simp [itemsUntil, h]

@[simp] theorem keeps_separated {item : Parser α} (h : Keeps item) : Keeps (separated item) := by
  rw [separated]
  exact keeps_bind h fun first => keeps_foldUntil (by simp) (by simp [h]) _

/-! ### Names and constants -/

@[simp] theorem keeps_dottedName : Keeps dottedName := by
  rw [dottedName]
  exact keeps_bind keeps_word fun first => keeps_foldUntil (by simp) (by simp) _

@[simp] theorem keeps_typeName : Keeps typeName := by simp [typeName]

@[simp] theorem keeps_literal : Keeps literal := by
  rw [literal]
  refine keeps_bind keeps_next fun lexeme => ?_
  split <;> simp

@[simp] theorem keeps_texts : Keeps texts := by
  rw [texts]
  refine keeps_bind keeps_literal fun first => keeps_foldUntil ?_ (by simp) _
  refine keeps_bind keeps_peek fun lexeme => ?_
  split <;> simp

@[simp] theorem keeps_quoted : Keeps quoted := by
  rw [quoted]
  refine keeps_bind keeps_texts fun bytes => ?_
  split <;> simp

@[simp] theorem keeps_scalarConstant : Keeps scalarConstant := by
  rw [scalarConstant]
  refine keeps_bind (keeps_takesMark _) fun negative => keeps_bind keeps_peek fun lexeme => ?_
  split
  · simp
  · refine keeps_bind keeps_next fun lexeme => ?_
    split <;> simp

theorem worded_of_splitAggregate {depth : Nat} {tokens inside rest : List Token}
    (hwords : Worded tokens) (h : splitAggregate depth tokens = some (inside, rest)) :
    Worded rest := by
  induction tokens generalizing depth inside rest with
  | nil => cases h
  | cons token more ih =>
      have hmore : Worded more := fun other hother => hwords other (List.mem_cons_of_mem _ hother)
      rw [splitAggregate.eq_def] at h
      dsimp only at h
      split at h
      · cases h
        exact hmore
      · obtain ⟨⟨inside', rest'⟩, hsplit, h⟩ := Option.map_eq_some_iff.mp h
        cases h
        exact ih hmore hsplit

@[simp] theorem keeps_aggregate : Keeps aggregate := by
  rw [aggregate]
  refine reads_get.bind fun tokens hwords => ?_
  split
  · exact keeps_failure
  · rename_i hsplit
    exact keeps_bind (keeps_set (worded_of_splitAggregate hwords hsplit)) fun _ => keeps_pure _

@[simp] theorem keeps_constant : Keeps constant := by simp [constant]

/-! ### Options and fields -/

@[simp] theorem keeps_optionPart : Keeps optionPart := by
  rw [optionPart]
  exact keeps_branch (by simp) (by simp) (by simp)

@[simp] theorem keeps_optionPath : Keeps optionPath := by
  rw [optionPath]
  exact keeps_bind keeps_optionPart fun first => keeps_foldUntil (by simp) (by simp) _

@[simp] theorem keeps_optionSetting (comment : Option String) : Keeps (optionSetting comment) := by
  rw [optionSetting]
  exact keeps_bind keeps_optionPath fun path => by simp

@[simp] theorem keeps_optionStatement (comment : Option String) :
    Keeps (optionStatement comment) := by
  simp [optionStatement]

@[simp] theorem keeps_fieldOptions : Keeps fieldOptions := by
  rw [fieldOptions]
  exact keeps_branch (by simp) (by simp) (by simp)

@[simp] theorem keeps_baseType : Keeps baseType := by
  rw [baseType]
  refine keeps_bind keeps_peek fun lexeme => ?_
  dsimp only
  split <;> simp

@[simp] theorem keeps_fieldLabel : Keeps fieldLabel := by
  rw [fieldLabel]
  exact keeps_branch (by simp) (by simp) (keeps_branch (by simp) (by simp) (by simp))

theorem reads_fieldTail (label : Option Cardinality) (type : BaseDecl) (oneof : Option Nat)
    (comment : Option String) :
    Reads (fieldTail label type oneof comment) fun field => IsSimple field.name := by
  rw [fieldTail]
  refine reads_word.bind fun name hname => ?_
  exact (keeps_mark _).andThen fun _ => keeps_integer.andThen fun _ =>
    keeps_fieldOptions.andThen fun _ => (keeps_mark _).andThen fun _ => reads_pure hname

@[simp] theorem keeps_number (signed : Bool) : Keeps (number signed) := by
  cases signed <;> simp [number]

@[simp] theorem keeps_numberRange (signed : Bool) : Keeps (numberRange signed) := by
  rw [numberRange]
  exact keeps_bind (by simp) fun first => keeps_branch (by simp) (by simp) (by simp)

@[simp] theorem keeps_reserved (signed : Bool) : Keeps (reserved signed) := by
  rw [reserved]
  refine keeps_bind keeps_peek fun lexeme => ?_
  split <;> simp

end Parser

end SchemaGo.Schema
