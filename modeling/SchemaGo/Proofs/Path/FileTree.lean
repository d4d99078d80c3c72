import SchemaGo.FileTree
import SchemaGo.Proofs.Path.Segments

/-!
# What writing does to reading

A path leads to a place by way of other places, all of which have to be
directories.  Writing a file makes directories where nothing was and puts the
file at the place of its path; so a file that could be read before can be read
afterwards, with the same contents unless its own place was written.
-/

namespace SchemaGo.FileTree

open SchemaGo.PathText
open SchemaGo.Text (splitOn)

variable {tree tree' tree'' : FileTree}

/-! ## Places -/

def nextPlace (place : Place) (segment : String) : Place :=
  if isIdle segment then place
  else if segment == ".." then place.dropLast
  else place ++ [segment]

def stopsFrom : Place → List String → List Place
  | _, [] => []
  | place, segment :: rest => place :: stopsFrom (nextPlace place segment) rest

def startOf (tree : FileTree) (path : String) : Place :=
  if isAbsolute path then [] else tree.workingDirectory

def placeOf (tree : FileTree) (path : String) : Place :=
  (splitOn '/' path).foldl nextPlace (tree.startOf path)

/-- The places that have to be directories for a path to lead anywhere. -/
def stops (tree : FileTree) (path : String) : List Place :=
  stopsFrom (tree.startOf path) (splitOn '/' path)

theorem walk_eq_ok_iff {place target : Place} {segments : List String} :
    tree.walk place segments = .ok target ↔
      (∀ stop ∈ stopsFrom place segments, tree.entry? stop = some .directory) ∧
        target = segments.foldl nextPlace place := by
  induction segments generalizing place with
  | nil => simp [walk, stopsFrom, eq_comm]
  | cons segment rest ih =>
      have hdescend : tree.entry? place = some .directory →
          tree.descend place segment = .ok (nextPlace place segment) := by
        intro hplace
        simp only [descend, hplace, nextPlace]
        split
        · rfl
        · split <;> rfl
      rw [walk, stopsFrom, List.forall_mem_cons, List.foldl_cons, and_assoc, ← ih]
      constructor
      · intro hwalk
        have hplace : tree.entry? place = some .directory := by
          cases hentry : tree.entry? place with
          | none => simp [descend, hentry] at hwalk
          | some entry =>
              cases entry with
              | file contents => simp [descend, hentry] at hwalk
              | directory => rfl
        rw [hdescend hplace] at hwalk
        exact ⟨hplace, hwalk⟩
      · rintro ⟨hplace, hwalk⟩
        rw [hdescend hplace]
        exact hwalk

theorem resolve_eq_ok_iff {path : String} {place : Place} :
    tree.resolve path = .ok place ↔ path ≠ "" ∧
      (∀ stop ∈ tree.stops path, tree.entry? stop = some .directory) ∧
        place = tree.placeOf path := by
  by_cases hempty : path = ""
  · simp [resolve, hempty]
  · rw [resolve, if_neg (by simpa using hempty), walk_eq_ok_iff]
    simp [stops, placeOf, startOf, hempty]

theorem read_eq_ok_iff {path : String} {contents : Bytes} :
    tree.read path = .ok contents ↔ path ≠ "" ∧
      (∀ stop ∈ tree.stops path, tree.entry? stop = some .directory) ∧
        tree.entry? (tree.placeOf path) = some (.file contents) := by
  constructor
  · intro hread
    rw [read] at hread
    split at hread
    · cases hread
    · rename_i place hresolve
      obtain ⟨hempty, hstops, rfl⟩ := resolve_eq_ok_iff.mp hresolve
      split at hread
      · cases hread
      · cases hread
      · rename_i hentry
        cases hread
        exact ⟨hempty, hstops, hentry⟩
  · rintro ⟨hempty, hstops, hentry⟩
    simp [read, resolve_eq_ok_iff.mpr ⟨hempty, hstops, rfl⟩, hentry]

/-! ## Trees that grow -/

theorem entry_of_isPrefixOf {place : Place} (h : place.isPrefixOf tree.workingDirectory) :
    tree.entry? place = some .directory := if_pos h

theorem entry_setEntry (tree : FileTree) (place other : Place) (entry : Entry) :
    FileTree.entry? (tree.setEntry place entry) other =
      if other.isPrefixOf tree.workingDirectory then some .directory
      else if other = place then some entry else tree.entry? other := by
  have hlookup : other ≠ place → ∀ entries : List (Place × Entry),
      (entries.filter fun entry => entry.1 != place).lookup other = entries.lookup other := by
    intro hne entries
    induction entries with
    | nil => rfl
    | cons first rest ih =>
        obtain ⟨p, e⟩ := first
        by_cases hp : p = place
        · have hother : (other == p) = false := by simpa [hp] using hne
          rw [List.filter_cons_of_neg (by simp [hp]), List.lookup_cons, hother]
          exact ih
        · rw [List.filter_cons_of_pos (by simpa using hp), List.lookup_cons, List.lookup_cons, ih]
  have hset : FileTree.entry? (tree.setEntry place entry) other =
      if other.isPrefixOf tree.workingDirectory then some .directory
      else ((place, entry) :: tree.entries.filter fun entry => entry.1 != place).lookup other := rfl
  by_cases hstart : other.isPrefixOf tree.workingDirectory
  · rw [hset, if_pos hstart, if_pos hstart]
  · rw [hset, if_neg hstart, if_neg hstart, FileTree.entry?, if_neg hstart]
    by_cases hne : other = place
    · simp [hne]
    · have hother : (other == place) = false := by simpa using hne
      rw [if_neg hne, List.lookup_cons, hother]
      exact hlookup hne tree.entries

/-- Directories are made where nothing was, and files are written at some of the given places.
Nothing else changes. -/
structure Evolves (written : List Place) (tree tree' : FileTree) : Prop where
  workingDirectory : tree'.workingDirectory = tree.workingDirectory
  entries : ∀ place, tree'.entry? place = tree.entry? place ∨
    tree.entry? place = none ∧ tree'.entry? place = some .directory ∨
    place ∈ written ∧ tree.entry? place ≠ some .directory ∧
      ∃ contents, tree'.entry? place = some (.file contents)

theorem Evolves.refl (tree : FileTree) : Evolves [] tree tree := ⟨rfl, fun _ => .inl rfl⟩

theorem Evolves.trans {written written' : List Place} (h : Evolves written tree tree')
    (h' : Evolves written' tree' tree'') : Evolves (written ++ written') tree tree'' := by
  refine ⟨h'.workingDirectory.trans h.workingDirectory, fun place => ?_⟩
  rw [List.mem_append]
  rcases h'.entries place with hsame | ⟨hnone, hmade⟩ | ⟨hmem, hbefore, contents, hfile⟩
  · rw [hsame]
    rcases h.entries place with hsame | hmade | ⟨hmem, hrest⟩
    · exact .inl hsame
    · exact .inr (.inl hmade)
    · exact .inr (.inr ⟨.inl hmem, hrest⟩)
  · rcases h.entries place with hsame | ⟨-, hdirectory⟩ | ⟨-, -, contents, hfile⟩
    · exact .inr (.inl ⟨hsame ▸ hnone, hmade⟩)
    · simp [hnone] at hdirectory
    · simp [hnone] at hfile
  · refine .inr (.inr ⟨.inr hmem, fun hdirectory => ?_, contents, hfile⟩)
    rcases h.entries place with hsame | ⟨hnone, -⟩ | ⟨-, hother, -⟩
    · exact hbefore (hsame.trans hdirectory)
    · simp [hnone] at hdirectory
    · exact hother hdirectory

theorem Evolves.mono {written written' : List Place} (h : Evolves written tree tree')
    (hsubset : written ⊆ written') : Evolves written' tree tree' := by
  refine ⟨h.workingDirectory, fun place => ?_⟩
  rcases h.entries place with hsame | hmade | ⟨hmem, hrest⟩
  · exact .inl hsame
  · exact .inr (.inl hmade)
  · exact .inr (.inr ⟨hsubset hmem, hrest⟩)

theorem Evolves.directory {written : List Place} (h : Evolves written tree tree') {place : Place}
    (hplace : tree.entry? place = some .directory) : tree'.entry? place = some .directory := by
  rcases h.entries place with hsame | ⟨hnone, -⟩ | ⟨-, hother, -⟩
  · rw [hsame, hplace]
  · simp [hnone] at hplace
  · exact absurd hplace hother

theorem Evolves.file {written : List Place} (h : Evolves written tree tree') {place : Place}
    (hwritten : place ∉ written) (contents : Bytes) :
    tree'.entry? place = some (.file contents) ↔ tree.entry? place = some (.file contents) := by
  rcases h.entries place with hsame | ⟨hnone, hmade⟩ | ⟨hmem, -⟩
  · rw [hsame]
  · simp [hnone, hmade]
  · exact absurd hmem hwritten

theorem Evolves.startOf {written : List Place} (h : Evolves written tree tree') (path : String) :
    tree'.startOf path = tree.startOf path := by
  rw [FileTree.startOf, FileTree.startOf, h.workingDirectory]

theorem Evolves.placeOf {written : List Place} (h : Evolves written tree tree') (path : String) :
    tree'.placeOf path = tree.placeOf path := by
  rw [FileTree.placeOf, FileTree.placeOf, h.startOf]

theorem Evolves.stops {written : List Place} (h : Evolves written tree tree') (path : String) :
    tree'.stops path = tree.stops path := by
  rw [FileTree.stops, FileTree.stops, h.startOf]

theorem Evolves.read {written : List Place} (h : Evolves written tree tree') {path : String}
    {contents : Bytes} (hread : tree.read path = .ok contents)
    (hplace : tree.placeOf path ∉ written) : tree'.read path = .ok contents := by
  obtain ⟨hempty, hstops, hentry⟩ := read_eq_ok_iff.mp hread
  refine read_eq_ok_iff.mpr ⟨hempty, fun stop hstop => ?_, ?_⟩
  · rw [h.stops] at hstop
    exact h.directory (hstops stop hstop)
  · rw [h.placeOf, h.file hplace]
    exact hentry

/-- A file that can be read afterwards could be read before, unless its place is written or it is
reached by way of a directory that was missing. -/
theorem Evolves.read_of_read {written : List Place} (h : Evolves written tree tree')
    {path : String} {contents : Bytes} (hread : tree'.read path = .ok contents)
    (hplace : tree.placeOf path ∉ written)
    (hstops : tree.entry? (tree.placeOf path) = some (.file contents) →
      ∀ stop ∈ tree.stops path, tree.entry? stop = none →
        tree'.entry? stop ≠ some .directory) :
    tree.read path = .ok contents := by
  obtain ⟨hempty, hstops', hentry⟩ := read_eq_ok_iff.mp hread
  rw [h.placeOf, h.file hplace] at hentry
  refine read_eq_ok_iff.mpr ⟨hempty, fun stop hstop => ?_, hentry⟩
  have hdirectory := hstops' stop (by rw [h.stops]; exact hstop)
  rcases h.entries stop with hsame | ⟨hnone, hmade⟩ | ⟨-, -, other, hfile⟩
  · rw [← hsame, hdirectory]
  · exact absurd hmade (hstops hentry stop hstop hnone)
  · simp [hdirectory] at hfile

/-! ## Making directories -/

theorem makeDirectory_evolves {path : String} (h : tree.makeDirectory path = .ok tree') :
    Evolves [] tree tree' := by
  simp only [makeDirectory] at h
  split at h
  · cases h
  · rename_i place _
    split at h
    · cases h
    · rename_i hnone
      cases h
      refine ⟨rfl, fun other => ?_⟩
      rw [entry_setEntry]
      by_cases hstart : other.isPrefixOf tree.workingDirectory
      · simp [hstart, entry_of_isPrefixOf hstart]
      · by_cases hother : other = place
        · simp [hother, hnone]
        · simp [hstart, hother]

theorem ensureDirectory_evolves (tree : FileTree) (path : String) :
    Evolves [] tree (tree.ensureDirectory path).2 := by
  rw [ensureDirectory]
  split
  · rename_i hmake
    exact makeDirectory_evolves hmake
  · exact .refl tree

theorem makeDirectoriesFrom_evolves (fuel : Nat) (tree : FileTree) (path : String) :
    Evolves [] tree (makeDirectoriesFrom fuel tree path).2 := by
  induction fuel generalizing tree path with
  | zero => exact ensureDirectory_evolves tree path
  | succ fuel ih =>
      rw [makeDirectoriesFrom]
      split
      · exact .refl tree
      · split
        · split
          · exact .refl tree
          · rename_i above _
            have habove := ih tree above
            split
            · simp_all
            · rename_i between hrun
              rw [hrun] at habove
              exact habove.trans (ensureDirectory_evolves between path)
        · exact ensureDirectory_evolves tree path

theorem makeDirectories_evolves (tree : FileTree) (path : String) :
    Evolves [] tree (tree.makeDirectories path).2 := by
  rw [makeDirectories]
  split
  · exact .refl tree
  · exact makeDirectoriesFrom_evolves path.length tree path

/-! ## Writing -/

theorem write_eq_ok {path : String} {contents : Bytes}
    (h : tree.write path contents = (.ok (), tree')) :
    path ≠ "" ∧ (∀ stop ∈ tree.stops path, tree.entry? stop = some .directory) ∧
      tree.entry? (tree.placeOf path) ≠ some .directory ∧
        tree' = tree.setEntry (tree.placeOf path) (.file contents) := by
  rw [write] at h
  split at h
  · split at h <;> cases h
  · cases h
  · rename_i place hresolve
    obtain ⟨hempty, hstops, rfl⟩ := resolve_eq_ok_iff.mp hresolve
    split at h
    · cases h
    · rename_i hentry
      cases h
      exact ⟨hempty, hstops, hentry, rfl⟩

theorem write_eq_error {path : String} {contents : Bytes} {cause : FileFault}
    (h : tree.write path contents = (.error cause, tree')) : tree' = tree := by
  rw [write] at h
  split at h
  · split at h <;> cases h <;> rfl
  · cases h
    rfl
  · split at h <;> cases h
    rfl

theorem entry_setEntry_file {place : Place} (contents : Bytes)
    (hplace : tree.entry? place ≠ some .directory) (other : Place) :
    FileTree.entry? (tree.setEntry place (.file contents)) other =
      if other = place then some (.file contents) else tree.entry? other := by
  rw [entry_setEntry]
  by_cases hstart : other.isPrefixOf tree.workingDirectory
  · have hdirectory := entry_of_isPrefixOf hstart
    have hother : other ≠ place := by
      rintro rfl
      exact hplace hdirectory
    rw [if_pos hstart, if_neg hother, hdirectory]
  · rw [if_neg hstart]

theorem write_evolves {path : String} {contents : Bytes}
    (h : tree.write path contents = (.ok (), tree')) :
    Evolves [tree.placeOf path] tree tree' := by
  obtain ⟨-, -, hplace, rfl⟩ := write_eq_ok h
  refine ⟨rfl, fun other => ?_⟩
  rw [entry_setEntry_file contents hplace]
  by_cases hother : other = tree.placeOf path
  · exact .inr (.inr (by simp [hother, hplace]))
  · exact .inl (by simp [hother])

theorem read_of_write {path : String} {contents : Bytes}
    (h : tree.write path contents = (.ok (), tree')) : tree'.read path = .ok contents := by
  obtain ⟨hempty, hstops, hplace, heq⟩ := write_eq_ok h
  have hentry := entry_setEntry_file contents hplace
  have hevolves := write_evolves h
  rw [← heq] at hentry
  refine read_eq_ok_iff.mpr ⟨hempty, fun stop hstop => ?_, ?_⟩
  · rw [hevolves.stops] at hstop
    exact hevolves.directory (hstops stop hstop)
  · rw [hevolves.placeOf, hentry, if_pos rfl]

theorem put_eq_ok {path : String} {contents : Bytes}
    (h : tree.put path contents = (.ok (), tree')) :
    ∃ between, Evolves [] tree between ∧ between.write path contents = (.ok (), tree') := by
  rw [put] at h
  split at h
  · exact ⟨tree, .refl tree, h⟩
  · rename_i above _
    have hmake := makeDirectories_evolves tree above
    split at h
    · cases h
    · rename_i between hrun
      rw [hrun] at hmake
      exact ⟨between, hmake, h⟩

theorem put_evolves {path : String} {contents : Bytes}
    (h : tree.put path contents = (.ok (), tree')) :
    Evolves [tree.placeOf path] tree tree' := by
  obtain ⟨between, hmake, hwrite⟩ := put_eq_ok h
  have hevolves := hmake.trans (write_evolves hwrite)
  rwa [hmake.placeOf] at hevolves

theorem put_error_evolves {path : String} {contents : Bytes} {cause : FileFault}
    (h : tree.put path contents = (.error cause, tree')) : Evolves [] tree tree' := by
  rw [put] at h
  split at h
  · rw [write_eq_error h]
    exact .refl tree
  · rename_i above _
    have hmake := makeDirectories_evolves tree above
    split at h
    · rename_i hrun
      rw [hrun] at hmake
      cases h
      exact hmake
    · rename_i hrun
      rw [hrun] at hmake
      rw [write_eq_error h]
      exact hmake

theorem read_of_put {path : String} {contents : Bytes}
    (h : tree.put path contents = (.ok (), tree')) : tree'.read path = .ok contents := by
  obtain ⟨between, -, hwrite⟩ := put_eq_ok h
  exact read_of_write hwrite

/-! ## Where paths lead -/

theorem placeOf_join (tree : FileTree) {left right : String}
    (hright : isAbsolute right = false) :
    tree.placeOf (join left right) =
      (splitOn '/' right).foldl nextPlace (tree.placeOf left) := by
  by_cases hleft : left = ""
  · have hstart : tree.placeOf "" = tree.workingDirectory := by
      simp [placeOf, startOf, isAbsolute, splitOn, Text.splitAt, nextPlace, isIdle]
    rw [hleft, hstart, join_empty_left, placeOf, startOf, hright]
    rfl
  · obtain ⟨front, hjoin, hfront⟩ := splitOn_join hright hleft
    have hplace : (splitOn '/' left).foldl nextPlace (tree.startOf left) =
        front.foldl nextPlace (tree.startOf left) := by
      rcases hfront with h | h <;> simp [h, nextPlace, isIdle]
    rw [placeOf, placeOf, hjoin, List.foldl_append, hplace, startOf, startOf,
      isAbsolute_join hright hleft]

theorem foldl_nextPlace {segments : List String} (hup : ".." ∉ segments) (place : Place) :
    segments.foldl nextPlace place = place ++ segments.filter fun segment => !isIdle segment := by
  induction segments generalizing place with
  | nil => simp
  | cons segment rest ih =>
      rw [List.mem_cons, not_or] at hup
      rw [List.foldl_cons, ih hup.2]
      by_cases hidle : isIdle segment
      · simp [nextPlace, hidle]
      · have hname : (segment == "..") = false := by simpa using Ne.symm hup.1
        simp [nextPlace, hidle, hname]

theorem placeOf_join_names (tree : FileTree) {left right : String}
    (hright : ∀ segment ∈ splitOn '/' right, IsName segment) :
    tree.placeOf (join left right) = tree.placeOf left ++ splitOn '/' right := by
  have hup : ".." ∉ splitOn '/' right := fun hmem => (hright _ hmem).2 rfl
  have hidle : (splitOn '/' right).filter (fun segment => !isIdle segment) = splitOn '/' right :=
    List.filter_eq_self.mpr fun segment hsegment => by simp [(hright segment hsegment).1]
  rw [tree.placeOf_join (isAbsolute_of_forall_isName hright), foldl_nextPlace hup, hidle]

def IsGrounded (tree : FileTree) (place : Place) : Prop :=
  ∀ above, above <+: place → above ≠ place → tree.entry? above = some .directory

theorem isGrounded_startOf (tree : FileTree) (path : String) :
    tree.IsGrounded (tree.startOf path) := by
  intro above habove hne
  rw [startOf] at habove hne
  split at habove
  · simp_all
  · exact entry_of_isPrefixOf (List.isPrefixOf_iff_prefix.mpr habove)

theorem IsGrounded.nextPlace {place : Place} (h : tree.IsGrounded place)
    (hplace : tree.entry? place = some .directory) (segment : String) :
    tree.IsGrounded (nextPlace place segment) ∧
      (¬ IsName segment → tree.entry? (FileTree.nextPlace place segment) = some .directory) := by
  rw [FileTree.nextPlace]
  split
  · exact ⟨h, fun _ => hplace⟩
  · rename_i hidle
    split
    · have hup : place.dropLast <+: place := List.dropLast_prefix place
      constructor
      · intro above habove hne
        refine h above (habove.trans hup) ?_
        rintro rfl
        exact hne (habove.eq_of_length (Nat.le_antisymm habove.length_le hup.length_le))
      · intro _
        by_cases hne : place.dropLast = place
        · rw [hne, hplace]
        · exact h _ hup hne
    · rename_i hup
      constructor
      · intro above habove hne
        rcases List.prefix_concat_iff.mp habove with heq | habove
        · exact absurd heq hne
        · by_cases heq : above = place
          · rw [heq, hplace]
          · exact h above habove heq
      · intro hname
        exact absurd ⟨by simpa using hidle, by simpa using hup⟩ hname

theorem IsGrounded.directory_of_getLast? {place : Place} (h : tree.IsGrounded place)
    {segments : List String} {last : String} (hlast : segments.getLast? = some last)
    (hstops : ∀ stop ∈ stopsFrom place segments, tree.entry? stop = some .directory)
    (hname : ¬ IsName last) :
    tree.entry? (segments.foldl FileTree.nextPlace place) = some .directory := by
  induction segments generalizing place with
  | nil => simp at hlast
  | cons segment rest ih =>
      rw [stopsFrom, List.forall_mem_cons] at hstops
      obtain ⟨hnext, hdirectory⟩ := h.nextPlace hstops.1 segment
      cases rest with
      | nil =>
          have heq : segment = last := by simpa using hlast
          exact hdirectory (heq ▸ hname)
      | cons second more =>
          rw [List.getLast?_cons_cons] at hlast
          exact ih hnext hlast hstops.2

theorem exists_last_of_not_directory {path : String}
    (hstops : ∀ stop ∈ tree.stops path, tree.entry? stop = some .directory)
    (hplace : tree.entry? (tree.placeOf path) ≠ some .directory) :
    ∃ last, (splitOn '/' path).getLast? = some last ∧ IsName last := by
  obtain ⟨last, hlast⟩ := Option.ne_none_iff_exists'.mp
    (mt List.getLast?_eq_none_iff.mp (Text.splitOn_ne_nil '/' path))
  refine ⟨last, hlast, ?_⟩
  by_contra hname
  exact hplace ((isGrounded_startOf tree path).directory_of_getLast? hlast hstops hname)

theorem exists_last_of_read {path : String} {contents : Bytes}
    (h : tree.read path = .ok contents) :
    ∃ last, (splitOn '/' path).getLast? = some last ∧ IsName last := by
  obtain ⟨-, hstops, hentry⟩ := read_eq_ok_iff.mp h
  exact exists_last_of_not_directory hstops (by simp [hentry])

end SchemaGo.FileTree
