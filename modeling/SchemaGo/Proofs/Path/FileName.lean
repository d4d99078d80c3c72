import Mathlib.Data.List.TakeWhile
import SchemaGo.Go.Name
import SchemaGo.Proofs.Path.FileTree
import SchemaGo.Template.Output

/-!
# Names of outputs

An output is named after the schema file or the template it is made from.  Neither
the directory nor the case of that name matters, so the name of an output has no
slash in it and is a single segment.
-/

namespace SchemaGo.Text

/-! ## Extensions -/

theorem eq_append_of_cutFirst? {sep : Char} {cs before after : List Char}
    (h : cutFirst? sep cs = some (before, after)) : cs = before ++ sep :: after := by
  induction cs generalizing before with
  | nil => cases h
  | cons first rest ih =>
      rw [cutFirst?] at h
      split at h
      · rename_i hsep
        cases h
        rw [hsep, List.nil_append]
      · obtain ⟨⟨front, back⟩, hrest, heq⟩ := Option.map_eq_some_iff.mp h
        cases heq
        rw [ih hrest, List.cons_append]

theorem dropExtension_isPrefix (cs : List Char) : dropExtension cs <+: cs := by
  rw [dropExtension]
  split
  · rename_i first stem hstem
    rw [beforeLast?] at hstem
    obtain ⟨⟨extension, front⟩, hcut, heq⟩ := Option.map_eq_some_iff.mp hstem
    have hreverse := congrArg List.reverse (eq_append_of_cutFirst? hcut)
    rw [List.reverse_reverse, List.reverse_append, List.reverse_cons, List.append_assoc] at hreverse
    rw [← heq, hreverse]
    exact List.prefix_append _ _
  · exact List.prefix_rfl

theorem mem_of_mem_dropExtension {c : Char} {cs : List Char} (h : c ∈ dropExtension cs) :
    c ∈ cs :=
  (dropExtension_isPrefix cs).subset h

theorem head?_dropExtension (cs : List Char) : (dropExtension cs).head? = cs.head? := by
  obtain ⟨extension, hcs⟩ := dropExtension_isPrefix cs
  cases hstem : dropExtension cs with
  | cons c stem => rw [← hcs, hstem, List.cons_append, List.head?_cons, List.head?_cons]
  | nil =>
      rw [dropExtension] at hstem
      split at hstem
      · cases hstem
      · rw [hstem]

/-! ## Lower case -/

theorem toLower_ne_slash {c : Char} (h : c ≠ '/') : c.toLower ≠ '/' := by
  intro heq
  unfold Char.toLower at heq
  split at heq
  · rename_i hcapital
    have hval : (c.val + ('a'.val - 'A'.val)).toNat = '/'.val.toNat :=
      congrArg (fun c : Char => c.val.toNat) heq
    have hfirst := UInt32.le_iff_toNat_le.mp hcapital.1
    have hlast := UInt32.le_iff_toNat_le.mp hcapital.2
    simp only [Char.reduceVal, UInt32.reduceSub, UInt32.toNat_add, Char.toNat_val,
      UInt32.reduceToNat, Nat.reducePow] at hval hfirst hlast
    omega
  · exact h heq

/-- No capital beyond the first ones has its small letter as far down as the digits. -/
theorem digits_lt_of_mem_lowerRuns : ∀ run ∈ lowerRuns, 0x39 < run.first + run.shift := by
  decide +kernel

theorem digits_lt_mapByRuns_lowerRuns {c : Char} (h : 0x39 < c.toNat) :
    (mapByRuns lowerRuns c).toNat = 0 ∨ 0x39 < (mapByRuns lowerRuns c).toNat := by
  rw [mapByRuns]
  split
  · rename_i run hrun
    have hshift := digits_lt_of_mem_lowerRuns run (List.mem_of_find?_eq_some hrun)
    have hcovers := List.find?_some hrun
    simp only [CaseRun.covers, Bool.and_eq_true, decide_eq_true_eq] at hcovers
    by_cases hvalid : (c.toNat + run.shift).toNat.isValidChar
    · have hval : (Char.ofNat (c.toNat + run.shift).toNat).toNat = (c.toNat + run.shift).toNat := by
        rw [Char.ofNat, dif_pos hvalid]
        rfl
      omega
    · rw [Char.ofNat, dif_neg hvalid]
      exact .inl rfl
  · exact .inr h

theorem slash_not_mem_lowerChar {c : Char} (h : c ≠ '/') : '/' ∉ lowerChar c := by
  rw [lowerChar]
  split
  · simpa using (toLower_ne_slash h).symm
  · rename_i hlarge
    split
    · decide
    · rw [List.mem_singleton]
      intro heq
      have habove := digits_lt_mapByRuns_lowerRuns (c := c) (by omega)
      rw [← heq] at habove
      exact absurd habove (by decide)

theorem slash_not_mem_lowerFrom {cs : List Char} (h : '/' ∉ cs) (before : List Char) :
    '/' ∉ lowerFrom before cs := by
  induction cs generalizing before with
  | nil => simp [lowerFrom]
  | cons c rest ih =>
      rw [List.mem_cons, not_or] at h
      rw [lowerFrom, List.mem_append, not_or]
      refine ⟨?_, ih h.2 _⟩
      split
      · rw [lowerSigma]
        split <;> decide
      · exact slash_not_mem_lowerChar (Ne.symm h.1)

end SchemaGo.Text

namespace SchemaGo

open SchemaGo.PathText
open SchemaGo.Text (splitOn)

theorem Go.slash_not_mem_fileStem (source : String) : '/' ∉ (Go.fileStem source).toList := by
  have hbase : '/' ∉ Go.baseName source.toList := by
    intro hmem
    rw [Go.baseName, List.mem_reverse] at hmem
    have hslash := List.mem_takeWhile_imp hmem
    exact absurd hslash (by decide)
  rw [Go.fileStem, Text.lower, String.toList_ofList, String.toList_ofList]
  exact Text.slash_not_mem_lowerFrom (mt Text.mem_of_mem_dropExtension hbase) []

theorem Template.slash_not_mem_outputName {files : FileTree} {template path : String}
    {root : Option String} {ast : Ast} {contents : Bytes}
    (hlocate : Template.locate template root = .ok path)
    (hrender : Template.renderFile files path ast = .ok contents) :
    '/' ∉ (Template.outputName template).toList := by
  have hread : ∃ source, files.read path = .ok source := by
    rw [Template.renderFile, FileTree.readText] at hrender
    cases hread : files.read path with
    | error cause => simp [hread] at hrender
    | ok source => exact ⟨source, rfl⟩
  obtain ⟨source, hread⟩ := hread
  obtain ⟨last, hlast, hname⟩ := FileTree.exists_last_of_read hread
  have hpath : (splitOn '/' path).getLast? = (splitOn '/' template).getLast? := by
    simp only [Template.locate] at hlocate
    split at hlocate
    · cases hlocate
      rfl
    · split at hlocate
      · cases hlocate
        exact getLast?_splitOn_join _ _
      · cases hlocate
  rw [hpath] at hlast
  have hslash := Text.not_mem_of_mem_splitOn (List.mem_of_getLast? hlast)
  rw [Template.outputName, fileName?_of_getLast? hlast hname, String.toList_ofList]
  exact mt Text.mem_of_mem_dropExtension hslash

end SchemaGo
