import Mathlib.Data.List.DropRight
import SchemaGo.Proofs.Reading.LoadDepth
import SchemaGo.Proofs.Schema.Loading

/-!
# The name of the file to link

A file is named by its path without the directory, and loaded under the name that
this name leads to.  The two are the same unless the name starts with the
directory once more, and then the file that was loaded is not found.
-/

namespace SchemaGo

/-! ## Segments -/

namespace Text

theorem exists_splitAt_dropWhile (sep : Char) (cs : List Char) :
    ∃ front, splitAt sep cs = front ++ splitAt sep (cs.dropWhile (· == sep)) := by
  induction cs with
  | nil => exact ⟨[], rfl⟩
  | cons c rest ih =>
      by_cases hsep : c = sep
      · obtain ⟨front, hfront⟩ := ih
        refine ⟨[] :: front, ?_⟩
        rw [splitAt, if_pos hsep, hfront, List.dropWhile_cons_of_pos (by simpa using hsep)]
        rfl
      · exact ⟨[], by rw [List.dropWhile_cons_of_neg (by simpa using hsep), List.nil_append]⟩

theorem splitOn_joinWith {segments : List String} (hne : segments ≠ [])
    (h : ∀ segment ∈ segments, '/' ∉ segment.toList) :
    splitOn '/' (joinWith "/" segments) = segments := by
  have hpieces : ∀ piece ∈ segments.map String.toList, '/' ∉ piece := by simpa using h
  have hsep : "/".toList = ['/'] := rfl
  rw [splitOn, joinWith, String.toList_intercalate, hsep,
    splitAt_intercalate '/' (by simpa using hne), flatMap_splitAt_of_not_mem hpieces]
  simp [Function.comp_def]

end Text

namespace Lookup

open SchemaGo.PathText (IsName isIdle)
open SchemaGo.Text (splitAt splitOn joinWith)

/-! ## Names -/

def Repeats (lookup : Lookup) (name : String) : Prop :=
  lookup.directory ≠ "" ∧ lookup.directory.toList <+: name.toList

theorem dropStart?_append (start rest : List Char) :
    dropStart? start (start ++ rest) = some rest := by
  induction start with
  | nil => rfl
  | cons c start ih => rw [List.cons_append, dropStart?, if_pos rfl, ih]

theorem dropStart?_eq_none_iff {start text : List Char} :
    dropStart? start text = none ↔ ¬ start <+: text := by
  constructor
  · rintro hnone ⟨rest, rfl⟩
    rw [dropStart?_append] at hnone
    cases hnone
  · intro hstart
    cases hdrop : dropStart? start text with
    | none => rfl
    | some rest => exact absurd ⟨rest, (eq_append_of_dropStart? hdrop).symm⟩ hstart

theorem not_mem_forwardSlashes (path : String) : '\\' ∉ (forwardSlashes path).toList := by
  rw [forwardSlashes, Text.replaceChar, String.toList_ofList, List.mem_map]
  rintro ⟨c, -, hc⟩
  split at hc
  · cases hc
  · contradiction

theorem nameOf_form (lookup : Lookup) (path : String) :
    '\\' ∉ (lookup.nameOf path).toList ∧ (lookup.nameOf path).toList.head? ≠ some '/' := by
  rw [nameOf, String.toList_ofList]
  constructor
  · intro hmem
    refine not_mem_forwardSlashes path ?_
    have hmem := (List.dropWhile_suffix _).subset hmem
    cases hdrop : dropStart? lookup.directory.toList (forwardSlashes path).toList with
    | none => simpa [hdrop] using hmem
    | some rest =>
        rw [eq_append_of_dropStart? hdrop]
        exact List.mem_append_right _ (by simpa [hdrop] using hmem)
  · intro hhead
    have hkept := List.head?_dropWhile_not (· == '/')
      ((dropStart? lookup.directory.toList (forwardSlashes path).toList).getD
        (forwardSlashes path).toList)
    simp [hhead] at hkept

theorem nameOf_eq_self_iff (lookup : Lookup) {name : String} (hback : '\\' ∉ name.toList)
    (hslash : name.toList.head? ≠ some '/') :
    lookup.nameOf name = name ↔ ¬ lookup.Repeats name := by
  have hkept : name.toList.dropWhile (· == '/') = name.toList := by
    cases htext : name.toList with
    | nil => rfl
    | cons c rest =>
        have hc : c ≠ '/' := by simpa [htext] using hslash
        exact List.dropWhile_cons_of_neg (by simpa using hc)
  rw [nameOf, forwardSlashes_of_not_mem hback]
  constructor
  · rintro hsame ⟨hdirectory, rest, hrest⟩
    rw [← hrest, dropStart?_append, Option.getD_some] at hsame
    have hlength := congrArg (fun text => text.toList.length) hsame
    have hshorter : (rest.dropWhile (· == '/')).length ≤ rest.length :=
      (List.dropWhile_suffix _).length_le
    have hlong : 0 < lookup.directory.toList.length := by
      simpa [List.length_pos_iff] using hdirectory
    simp only [String.toList_ofList, ← hrest, List.length_append] at hlength
    omega
  · intro hrepeats
    have hdrop : (dropStart? lookup.directory.toList name.toList).getD name.toList =
        name.toList := by
      by_cases hdirectory : lookup.directory = ""
      · rw [hdirectory]
        rfl
      · have hstart : ¬ lookup.directory.toList <+: name.toList := fun hstart =>
          hrepeats ⟨hdirectory, hstart⟩
        rw [dropStart?_eq_none_iff.mpr hstart, Option.getD_none]
    rw [hdrop, hkept, String.ofList_toList]

/-! ## Plain paths -/

theorem withSlash_of_getLast? {text last : String}
    (h : (splitOn '/' text).getLast? = some last) (hlast : last ≠ "") :
    withSlash text = text ++ "/" := by
  have hempty : text ≠ "" := by
    rintro rfl
    exact hlast (Option.some.inj h).symm
  have hslash : text.toList.getLast? ≠ some '/' := by
    intro hslash
    obtain ⟨start, hstart⟩ := List.getLast?_eq_some_iff.mp hslash
    have hend : (splitOn '/' text).getLast? = some "" := by
      simp [splitOn, hstart, Text.splitAt_append_cons, Text.splitAt]
    rw [h] at hend
    exact hlast (Option.some.inj hend)
  simp [withSlash, hempty, hslash]

variable {path includeDirectory first last : String} {before : List String}

theorem eq_append_of_splitOn (hsplit : splitOn '/' path = first :: (before ++ [last])) :
    path = joinWith "/" (first :: before.rdropWhile isIdle) ++ "/" ++
      joinWith "/" (before.rtakeWhile isIdle ++ [last]) := by
  have hparts : splitOn '/' path =
      (first :: before.rdropWhile isIdle) ++ (before.rtakeWhile isIdle ++ [last]) := by
    rw [hsplit, ← List.append_assoc, List.cons_append, List.rdropWhile_append_rtakeWhile,
      List.cons_append]
  have hjoin := String.intercalate_append_of_ne_nil (s := "/")
    (List.cons_ne_nil first (before.rdropWhile isIdle))
    (List.concat_ne_nil last (before.rtakeWhile isIdle))
  rw [← Text.joinWith_splitOn path, hparts]
  exact hjoin

theorem not_isIdle_of_getLast?_rdropWhile {final : String}
    (h : (before.rdropWhile isIdle).getLast? = some final) : isIdle final = false := by
  have hne : before.rdropWhile isIdle ≠ [] := by
    intro hempty
    simp [hempty] at h
  have hlast := List.rdropWhile_last_not isIdle before hne
  rw [List.getLast?_eq_some_getLast hne] at h
  simpa [Option.some.inj h] using hlast

theorem parent?_of_splitOn (hsplit : splitOn '/' path = first :: (before ++ [last]))
    (hlast : isIdle last = false) :
    PathText.parent? path = some (if first = "" ∧ before.rdropWhile isIdle = [] then "/"
      else joinWith "/" (first :: before.rdropWhile isIdle)) := by
  have hend : PathText.dropIdleEnd (before ++ [last]) = before ++ [last] :=
    List.rdropWhile_concat_neg isIdle before last (by simp [hlast])
  have hkept : PathText.dropIdleEnd before = before.rdropWhile isIdle := rfl
  simp only [PathText.parent?, PathText.significant, hsplit, hend, List.dropLast_concat, hkept]
  cases before.rdropWhile isIdle with
  | nil => by_cases hfirst : first = "" <;> simp [hfirst, joinWith]
  | cons segment rest => simp [PathText.render]

theorem splitOn_front (hsplit : splitOn '/' path = first :: (before ++ [last])) :
    splitOn '/' (joinWith "/" (first :: before.rdropWhile isIdle)) =
      first :: before.rdropWhile isIdle := by
  refine Text.splitOn_joinWith (List.cons_ne_nil _ _) fun segment hsegment => ?_
  have hmem : segment ∈ splitOn '/' path := by
    rw [hsplit]
    exact List.cons_subset_cons first ((List.rdropWhile_prefix isIdle before).trans
      (List.prefix_append before [last])).subset hsegment
  exact Text.not_mem_of_mem_splitOn hmem

theorem splitOn_behind (hsplit : splitOn '/' path = first :: (before ++ [last])) :
    splitOn '/' (joinWith "/" (before.rtakeWhile isIdle ++ [last])) =
      before.rtakeWhile isIdle ++ [last] := by
  refine Text.splitOn_joinWith (List.concat_ne_nil _ _) fun segment hsegment => ?_
  have hmem : segment ∈ splitOn '/' path := by
    rw [hsplit]
    refine List.mem_cons_of_mem first (List.mem_append.mpr ?_)
    exact (List.mem_append.mp hsegment).imp_left ((List.rtakeWhile_suffix isIdle before).mem ·)
  exact Text.not_mem_of_mem_splitOn hmem

theorem directory_ofFile (includeDirectory : String) (hback : '\\' ∉ path.toList)
    (hsplit : splitOn '/' path = first :: (before ++ [last])) (hlast : isIdle last = false) :
    (ofFile path includeDirectory).1.directory =
      joinWith "/" (first :: before.rdropWhile isIdle) ++ "/" := by
  rw [ofFile, ofDirectory, parent?_of_splitOn hsplit hlast, Option.getD_some]
  split
  · rename_i hroot
    rw [hroot.1, hroot.2]
    rfl
  · rename_i hroot
    have hforward : '\\' ∉ (joinWith "/" (first :: before.rdropWhile isIdle)).toList := by
      refine fun hmem => hback ?_
      rw [eq_append_of_splitOn hsplit, String.toList_append, String.toList_append]
      exact List.mem_append_left _ (List.mem_append_left _ hmem)
    have hfinal : (before.rdropWhile isIdle).getLast?.getD first ≠ "" := by
      cases hkept : (before.rdropWhile isIdle).getLast? with
      | none =>
          intro hfirst
          exact hroot ⟨hfirst, List.getLast?_eq_none_iff.mp hkept⟩
      | some final =>
          rintro rfl
          exact absurd (not_isIdle_of_getLast?_rdropWhile hkept) (by decide)
    rw [forwardSlashes_of_not_mem hforward, withSlash_of_getLast? ?_ hfinal]
    rw [splitOn_front hsplit, List.getLast?_cons]

theorem name_ofFile (includeDirectory : String) (hback : '\\' ∉ path.toList)
    (hsplit : splitOn '/' path = first :: (before ++ [last])) (hlast : isIdle last = false) :
    (ofFile path includeDirectory).2.toList =
      (joinWith "/" (before.rtakeWhile isIdle ++ [last])).toList.dropWhile (· == '/') := by
  have hname : (ofFile path includeDirectory).2 =
      (ofFile path includeDirectory).1.nameOf path := rfl
  have hpath := congrArg String.toList (eq_append_of_splitOn hsplit)
  rw [String.toList_append] at hpath
  rw [hname, nameOf, forwardSlashes_of_not_mem hback, directory_ofFile _ hback hsplit hlast, hpath,
    dropStart?_append, Option.getD_some, String.toList_ofList]

/-- Segments of the directory that come again behind it are idle. -/
theorem isIdle_of_repeats (hback : '\\' ∉ path.toList)
    (hsplit : splitOn '/' path = first :: (before ++ [last])) (hlast : isIdle last = false)
    (h : (ofFile path includeDirectory).1.Repeats (ofFile path includeDirectory).2) :
    ∀ segment ∈ first :: before.rdropWhile isIdle, isIdle segment = true := by
  obtain ⟨-, rest, hrest⟩ := h
  obtain ⟨front, hfront⟩ := Text.exists_splitAt_dropWhile '/'
    (joinWith "/" (before.rtakeWhile isIdle ++ [last])).toList
  have hslash : "/".toList = ['/'] := rfl
  rw [directory_ofFile _ hback hsplit hlast, name_ofFile _ hback hsplit hlast,
    String.toList_append, List.append_assoc, hslash, List.singleton_append] at hrest
  rw [← hrest, Text.splitAt_append_cons] at hfront
  have hpieces : before.rtakeWhile isIdle ++ [last] = front.map String.ofList ++
      ((first :: before.rdropWhile isIdle) ++ (splitAt '/' rest).map String.ofList) := by
    rw [← splitOn_behind hsplit, ← splitOn_front hsplit, splitOn, splitOn, hfront,
      List.map_append, List.map_append]
  intro segment hsegment
  rcases List.eq_nil_or_concat' ((splitAt '/' rest).map String.ofList) with
    htail | ⟨tail, final, htail⟩
  · exact absurd (List.map_eq_nil_iff.mp htail) (Text.splitAt_ne_nil '/' rest)
  · rw [htail, ← List.append_assoc, ← List.append_assoc] at hpieces
    have hidles := (List.append_inj' hpieces rfl).1
    refine List.mem_rtakeWhile_imp (l := before) ?_
    rw [hidles]
    exact List.mem_append_left _ (List.mem_append_right _ hsegment)

theorem directory_of_repeats (hback : '\\' ∉ path.toList)
    (hsplit : splitOn '/' path = first :: (before ++ [last])) (hlast : isIdle last = false)
    (h : (ofFile path includeDirectory).1.Repeats (ofFile path includeDirectory).2) :
    (ofFile path includeDirectory).1.directory = "./" := by
  have hidle := isIdle_of_repeats hback hsplit hlast h
  have hkept : before.rdropWhile isIdle = [] := by
    rw [← List.getLast?_eq_none_iff]
    cases hkept : (before.rdropWhile isIdle).getLast? with
    | none => rfl
    | some segment =>
        have hsegment := hidle segment (List.mem_cons_of_mem _ (List.mem_of_getLast? hkept))
        rw [not_isIdle_of_getLast?_rdropWhile hkept] at hsegment
        cases hsegment
  have hdirectory := directory_ofFile includeDirectory hback hsplit hlast
  rw [hkept] at hdirectory
  have hfirst : first = "" ∨ first = "." := by
    simpa [isIdle] using hidle first List.mem_cons_self
  rcases hfirst with rfl | rfl
  · have hslash : (joinWith "/" [""] ++ "/").toList = ['/'] := by decide
    obtain ⟨rest, hrest⟩ := h.2
    rw [hdirectory, hslash] at hrest
    exact absurd (hrest ▸ rfl) (nameOf_form (ofFile path includeDirectory).1 path).2
  · exact hdirectory

theorem directory_ofFile_single (includeDirectory : String)
    (hsplit : splitOn '/' path = [first]) : (ofFile path includeDirectory).1.directory = "" := by
  have hparent : (PathText.parent? path).getD "" = "" := by
    by_cases hfirst : first = "" <;>
      simp [PathText.parent?, PathText.significant, hsplit, PathText.dropIdleEnd, hfirst]
  rw [ofFile, ofDirectory, hparent]
  rfl

theorem repeats_ofFile_iff (includeDirectory : String) (hback : '\\' ∉ path.toList)
    (hlast : (splitOn '/' path).getLast? = some last) (hname : IsName last) :
    (ofFile path includeDirectory).1.Repeats (ofFile path includeDirectory).2 ↔
      (ofFile path includeDirectory).1.directory = "./" ∧
        "./".toList <+: (ofFile path includeDirectory).2.toList := by
  constructor
  · intro hrepeats
    suffices hdirectory : (ofFile path includeDirectory).1.directory = "./" from
      ⟨hdirectory, hdirectory ▸ hrepeats.2⟩
    cases hsplit : splitOn '/' path with
    | nil => exact absurd hsplit (Text.splitOn_ne_nil '/' path)
    | cons first rest =>
        rcases List.eq_nil_or_concat' rest with rfl | ⟨before, final, rfl⟩
        · exact absurd (directory_ofFile_single includeDirectory hsplit) hrepeats.1
        · rw [hsplit, ← List.cons_append, List.getLast?_concat] at hlast
          exact directory_of_repeats hback hsplit (Option.some.inj hlast ▸ hname.1) hrepeats
  · rintro ⟨hdirectory, hstart⟩
    rw [Repeats, hdirectory]
    exact ⟨by decide, hstart⟩

end Lookup

namespace Schema

open SchemaGo.PathText (IsName)
open SchemaGo.Text (splitOn)

/-! ## Loading -/

theorem readDeclarations_ne_missing (lookup : Lookup) (files : FileTree) (name file : String) :
    readDeclarations lookup files name ≠ .error (.missing file) := by
  rw [readDeclarations]
  split
  · rw [declarations]
    split
    · simp
    · split <;> simp
  · split
    · split <;> simp
    · simp

theorem foldlM_ne_error {ε α β : Type} {step : β → α → Except ε β} {fault : ε}
    (h : ∀ state item, step state item ≠ .error fault) (items : List α) (state : β) :
    items.foldlM step state ≠ .error fault := by
  induction items generalizing state with
  | nil => nofun
  | cons item rest ih =>
      rw [List.foldlM_cons]
      cases hstep : step state item with
      | error other =>
          rintro ⟨⟩
          exact h state item hstep
      | ok next => exact ih next

theorem load_ne_missing (lookup : Lookup) (files : FileTree) (fuel : Nat) (stack : List String)
    (name : String) (loaded : Loaded) (file : String) :
    load lookup files fuel stack name loaded ≠ .error (.missing file) := by
  induction fuel generalizing stack name loaded with
  | zero => simp [load]
  | succ fuel ih =>
      rw [load, loadBy]
      split
      · simp
      · split
        · simp
        · split
          · rename_i hread
            rintro ⟨⟩
            exact readDeclarations_ne_missing lookup files name file hread
          · split
            · rename_i hfold
              rintro ⟨⟩
              refine foldlM_ne_error (fun loaded (declared : ImportDecl) => ?_) _ _ hfold
              exact ih (name :: stack) declared.name loaded
            · split <;> simp

/-! ## Linking -/

theorem link_eq_of_load {files : FileTree} {includeDirectory path : String} {lookup : Lookup}
    {name : String} (hfile : Lookup.ofFile path includeDirectory = (lookup, name)) :
    link files includeDirectory path =
      (load lookup files (loadDepth files) [] (lookup.nameOf name) .empty >>= fun loaded =>
        match loaded.pool.file? name with
        | some file => .ok ⟨loaded.pool, file, lookup.directory⟩
        | none => .error (.missing name)) := by
  rw [link, hfile]
  dsimp only
  cases load lookup files (loadDepth files) [] (lookup.nameOf name) .empty <;> rfl

theorem link_eq_missing_iff {files : FileTree} {includeDirectory path missing : String}
    {lookup : Lookup} {name : String}
    (hfile : Lookup.ofFile path includeDirectory = (lookup, name)) :
    link files includeDirectory path = .error (.missing missing) ↔
      missing = name ∧
      ∃ loaded, load lookup files (loadDepth files) [] (lookup.nameOf name) .empty = .ok loaded ∧
        ¬ loaded.Has name := by
  rw [link_eq_of_load hfile]
  cases hload : load lookup files (loadDepth files) [] (lookup.nameOf name) .empty with
  | error fault =>
      have hother : fault ≠ .missing missing := by
        rintro rfl
        exact load_ne_missing _ _ _ _ _ _ _ hload
      simpa [bind, Except.bind] using hother
  | ok loaded =>
      have hhas : loaded.Has name ↔ (loaded.pool.file? name).isSome := Loaded.has_iff
      cases hfound : loaded.pool.file? name <;>
        simp [bind, Except.bind, hhas, hfound, eq_comm (a := name)]

/-- The name of a file leads to itself unless it starts with the directory of the file once more,
which among plain paths only those do that start with `./` twice.  Only then can linking miss the
file that it has loaded; otherwise it finds it. -/
theorem link_finds_own_file (files : FileTree) (includeDirectory path : String) :
    let lookup := (Lookup.ofFile path includeDirectory).1
    let name := (Lookup.ofFile path includeDirectory).2
    (lookup.nameOf name = name ↔ ¬ lookup.Repeats name) ∧
    ('\\' ∉ path.toList → ∀ last, (splitOn '/' path).getLast? = some last → IsName last →
      (lookup.Repeats name ↔ lookup.directory = "./" ∧ "./".toList <+: name.toList)) ∧
    (∀ missing, link files includeDirectory path = .error (.missing missing) ↔
      missing = name ∧ lookup.Repeats name ∧
        ∃ loaded, load lookup files (loadDepth files) [] (lookup.nameOf name) .empty =
          .ok loaded ∧ ¬ loaded.Has name) ∧
    (¬ lookup.Repeats name →
      ∀ loaded, load lookup files (loadDepth files) [] name .empty = .ok loaded →
        ∃ file, file.name = name ∧
          link files includeDirectory path = .ok ⟨loaded.pool, file, lookup.directory⟩) := by
  intro lookup name
  obtain ⟨hback, hslash⟩ := lookup.nameOf_form path
  have hkept : lookup.nameOf name = name ↔ ¬ lookup.Repeats name :=
    lookup.nameOf_eq_self_iff hback hslash
  have hofFile : Lookup.ofFile path includeDirectory = (lookup, name) := rfl
  refine ⟨hkept, ?_, ?_, ?_⟩
  · intro hpath last hlast hname
    exact Lookup.repeats_ofFile_iff includeDirectory hpath hlast hname
  · intro missing
    rw [link_eq_missing_iff hofFile]
    refine and_congr_right fun _ => ⟨?_, And.right⟩
    rintro ⟨loaded, hload, hmissing⟩
    refine ⟨?_, loaded, hload, hmissing⟩
    by_contra hrepeats
    have hhas := (loadsBy_of_load hload).has
    rw [hkept.mpr hrepeats] at hhas
    exact hmissing hhas
  · intro hrepeats loaded hload
    obtain ⟨file, hfile⟩ := Option.isSome_iff_exists.mp
      (Loaded.has_iff.mp (loadsBy_of_load hload).has)
    refine ⟨file, by simpa using List.find?_some hfile, ?_⟩
    rw [link_eq_of_load hofFile, hkept.mpr hrepeats, hload]
    simp only [bind, Except.bind, hfile]

def singleFile : FileTree := ⟨["work"], [(["work", "x.proto"], .file [])]⟩

theorem link_finds_own_file_dotted :
    Lookup.ofFile "././x.proto" "inc" = (⟨"./", "inc"⟩, "./x.proto") ∧
    (Lookup.mk "./" "inc").nameOf "./x.proto" ≠ "./x.proto" ∧
    link singleFile "inc" "././x.proto" = .error (.missing "./x.proto") ∧
    ∃ linked, link singleFile "inc" "./x.proto" = .ok linked ∧ linked.file.name = "x.proto" := by
  have hdotted : Lookup.ofFile "././x.proto" "inc" = (⟨"./", "inc"⟩, "./x.proto") := by decide
  have hplain : Lookup.ofFile "./x.proto" "inc" = (⟨"./", "inc"⟩, "x.proto") := by decide
  have hrepeats : (Lookup.mk "./" "inc").Repeats "./x.proto" := ⟨by decide, by decide⟩
  have hname : (Lookup.mk "./" "inc").nameOf "./x.proto" = "x.proto" := by decide
  obtain ⟨loaded, hload, hmissing⟩ : ∃ loaded,
      load ⟨"./", "inc"⟩ singleFile (loadDepth singleFile) [] "x.proto" .empty = .ok loaded ∧
        ¬ loaded.Has "./x.proto" := by
    have hrun : (load ⟨"./", "inc"⟩ singleFile (loadDepth singleFile) [] "x.proto"
        .empty).toOption.any fun loaded => (loaded.pool.file? "./x.proto").isNone := by
      decide +kernel
    obtain ⟨loaded, hload, hnone⟩ := exists_eq_ok_of_any hrun
    refine ⟨loaded, hload, ?_⟩
    rw [Loaded.has_iff]
    simpa using hnone
  obtain ⟨hkept, -, hmisses, -⟩ := link_finds_own_file singleFile "inc" "././x.proto"
  obtain ⟨-, -, -, hfinds⟩ := link_finds_own_file singleFile "inc" "./x.proto"
  rw [hdotted] at hkept hmisses
  rw [hplain] at hfinds
  refine ⟨hdotted, fun hsame => hkept.mp hsame hrepeats, ?_, ?_⟩
  · exact (hmisses _).mpr ⟨rfl, hrepeats, loaded, hname ▸ hload, hmissing⟩
  · obtain ⟨file, hfile, hlink⟩ := hfinds (fun h => absurd h.2 (by decide)) loaded hload
    exact ⟨_, hlink, hfile⟩

end Schema

end SchemaGo
