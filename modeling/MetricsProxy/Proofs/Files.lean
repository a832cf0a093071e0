import Mathlib.Data.List.Basic
import MetricsProxy.Files

/-!
# What is written is read

Directories that are created take nothing away (`createDirectories_kept`), and where a path
leads somewhere already there is none to be created (`createDirectories_of_locate`). A file that
is written is no directory, so it stands in nobody's way: every place is found as before
(`locate_put`), and reading the same path gives what was written (`read_of_write`).
-/
namespace MetricsProxy.Files

variable {f g : Files} {p q : Place} {parts : List String} {path : FilePath}
  {bytes old : List UInt8} {access : Access} {n : FileNode}

/-! ## Following a path -/

theorem obstacle?_eq_none_iff :
    f.obstacle? p = none ↔
      ∃ access, f.node? p = some (.directory access) ∧ access.error? = none := by
  unfold obstacle?
  cases f.node? p with
  | none => simp
  | some n => cases n <;> simp

theorem locate_cons_eq_ok_iff {part : String} :
    f.locate p (part :: parts) = .ok q ↔ f.obstacle? p = none ∧
      part.utf8ByteSize ≤ FilePath.longestName ∧ f.locate (descend p part) parts = .ok q := by
  rw [locate]
  cases f.obstacle? p with
  | some e => simp
  | none =>
      by_cases hlong : FilePath.longestName < part.utf8ByteSize
      · simp [hlong, Nat.not_le_of_lt hlong]
      · simp [hlong, Nat.le_of_not_lt hlong]

theorem locate_append (xs ys : List String) (p : Place) :
    f.locate p (xs ++ ys) = (f.locate p xs).bind fun q => f.locate q ys := by
  induction xs generalizing p with
  | nil => rfl
  | cons x xs ih =>
      rw [List.cons_append, locate, locate]
      cases f.obstacle? p with
      | some e => rfl
      | none =>
          by_cases hlong : FilePath.longestName < x.utf8ByteSize
          · simp [hlong, Except.bind]
          · simp [hlong, ih]

/-- A path leads where it led if nothing new is in its way. -/
theorem locate_of_open (still : ∀ q, f.obstacle? q = none → g.obstacle? q = none)
    (h : f.locate p parts = .ok q) : g.locate p parts = .ok q := by
  induction parts generalizing p with
  | nil => exact h
  | cons part parts ih =>
      obtain ⟨hopen, short, hrest⟩ := locate_cons_eq_ok_iff.mp h
      exact locate_cons_eq_ok_iff.mpr ⟨still p hopen, short, ih hrest⟩

theorem exists_directory_of_locate_dot (h : f.locate p (parts ++ ["."]) = .ok q) :
    ∃ access, f.node? q = some (.directory access) := by
  rw [locate_append] at h
  cases hlast : f.locate p parts with
  | error e => simp [hlast, Except.bind] at h
  | ok q' =>
      rw [hlast] at h
      obtain ⟨hopen, -, hq⟩ := locate_cons_eq_ok_iff.mp h
      obtain rfl : q' = q := by simpa [descend, locate] using hq
      obtain ⟨access, hnode, -⟩ := obstacle?_eq_none_iff.mp hopen
      exact ⟨access, hnode⟩

theorem root_ne (file : ∀ access, f.node? p ≠ some (.directory access)) : p ≠ [] := by
  rintro rfl
  exact file f.root (by simp [node?])

/-- A file in the place of no directory is in nobody's way. -/
theorem locate_put (file : ∀ access, f.node? p ≠ some (.directory access))
    {start : Place} (h : f.locate start parts = .ok q) :
    (f.put p (.file bytes access)).locate start parts = .ok q := by
  refine locate_of_open (fun r hr => ?_) h
  obtain ⟨access', hnode, hopen⟩ := obstacle?_eq_none_iff.mp hr
  have hne : r ≠ p := by
    rintro rfl
    exact file access' hnode
  rw [obstacle?_eq_none_iff, node?_put f _ r (root_ne file), if_neg hne]
  exact ⟨access', hnode, hopen⟩

/-! ## Creating directories -/

/-- Whatever was there is there, as it was. -/
def Keeps (f g : Files) : Prop := ∀ q n, f.node? q = some n → g.node? q = some n

theorem Keeps.refl (f : Files) : Keeps f f := fun _ _ h => h

theorem Keeps.put (absent : f.node? p = none) (n : FileNode) : Keeps f (f.put p n) := by
  intro q m hq
  have hroot : p ≠ [] := root_ne (f := f) fun access => by simp [absent]
  have hne : q ≠ p := by
    rintro rfl
    simp [absent] at hq
  rw [node?_put f n q hroot, if_neg hne, hq]

theorem createDirectories_kept (f : Files) (p : Place) (parts : List String) :
    Keeps f (f.createDirectories p parts).1 := by
  induction parts generalizing f p with
  | nil => exact .refl f
  | cons part parts ih =>
      rw [createDirectories]
      cases f.obstacle? p with
      | some e => exact .refl f
      | none =>
          dsimp only
          cases hnext : f.node? (descend p part) with
          | some n =>
              cases n with
              | file bytes access => exact .refl f
              | directory access => exact ih f _
          | none =>
              dsimp only
              split
              · exact .refl f
              · split
                · exact fun q m hq => ih _ _ q m (Keeps.put hnext _ q m hq)
                · exact .refl f

/-- Where a path leads somewhere, the directories on its way are there. -/
theorem createDirectories_of_locate (h : f.locate p parts = .ok q) :
    f.createDirectories p (parts.filter (· != ".")).dropLast = (f, .ok ()) := by
  induction parts generalizing p with
  | nil => rfl
  | cons part parts ih =>
      obtain ⟨hopen, short, hrest⟩ := locate_cons_eq_ok_iff.mp h
      have hinner := ih hrest
      by_cases hdot : part = "."
      · subst hdot
        simpa [descend] using hinner
      · rw [List.filter_cons_of_pos (by simpa using hdot)]
        cases hnames : parts.filter (· != ".") with
        | nil => rfl
        | cons name names =>
            -- There is a part behind this one, so this one leads to a directory.
            obtain ⟨access, hnode⟩ : ∃ access, f.node? (descend p part) =
                some (.directory access) := by
              cases parts with
              | nil => simp at hnames
              | cons next parts =>
                  obtain ⟨hopen, -, -⟩ := locate_cons_eq_ok_iff.mp hrest
                  obtain ⟨access, hnode, -⟩ := obstacle?_eq_none_iff.mp hopen
                  exact ⟨access, hnode⟩
            rw [hnames] at hinner
            rw [List.dropLast_cons_of_ne_nil (by simp), createDirectories]
            simp only [hopen, hnode]
            exact hinner

/-! ## Reading and writing -/

/-- A path that can be looked up at all. -/
structure Sound (path : FilePath) : Prop where
  noNul : path.hasNul = false
  short : path.size ≤ FilePath.longestPath

/-- A path is looked up before a file is missed. -/
theorem sound_of_read (h : (∃ bytes, f.read path = .ok bytes) ∨ f.read path = .error .notFound) :
    Sound path := by
  unfold read at h
  by_cases hnul : path.hasNul = true
  · simp [hnul] at h
  · by_cases hlong : FilePath.longestPath < path.size
    · simp [hnul, hlong] at h
    · exact ⟨by simpa using hnul, Nat.le_of_not_lt hlong⟩

/-- The path names a file with this content. -/
structure Holds (f : Files) (path : FilePath) (p : Place) (bytes : List UInt8) (access : Access) :
    Prop where
  unslashed : path.slashed = false
  named : path.parts ≠ []
  located : f.locate [] path.parts = .ok p
  node : f.node? p = some (.file bytes access)

theorem Holds.read (h : f.Holds path p bytes access) (sound : Sound path)
    (readable : access.error? = none) : f.read path = .ok bytes := by
  unfold Files.read
  simp [sound.noNul, Nat.not_lt.mpr sound.short, h.unslashed, h.named, h.located, h.node, readable]

theorem unslashed_of_file
    (hplace : f.locate [] (path.parts ++ if path.slashed then ["."] else []) = .ok p)
    (hnode : f.node? p = some (.file bytes access)) :
    path.slashed = false ∧ f.locate [] path.parts = .ok p := by
  cases hslashed : path.slashed with
  | false => simpa [hslashed] using hplace
  | true =>
      rw [hslashed, if_pos rfl] at hplace
      obtain ⟨access, hdirectory⟩ := exists_directory_of_locate_dot hplace
      simp [hnode] at hdirectory

theorem exists_holds_of_read (h : f.read path = .ok bytes) :
    ∃ p access, f.Holds path p bytes access ∧ access.error? = none := by
  have sound := sound_of_read (.inl ⟨bytes, h⟩)
  unfold Files.read at h
  simp only [sound.noNul, Nat.not_lt.mpr sound.short, Bool.false_eq_true, if_false] at h
  split at h
  · cases h
  · rename_i hnamed
    split at h
    · cases h
    · rename_i p hplace
      split at h
      · cases h
      · cases h
      · rename_i content access hnode
        split at h
        · cases h
        · rename_i readable
          obtain rfl := Except.ok.inj h
          obtain ⟨hslashed, hlocated⟩ := unslashed_of_file hplace hnode
          exact ⟨p, access, ⟨hslashed, fun hempty => hnamed ⟨hempty, hslashed⟩, hlocated, hnode⟩,
            readable⟩

theorem error?_of_isWritable (h : access.isWritable = true) : access.error? = none := by
  cases access with
  | full => rfl
  | readOnly => rfl
  | closed e there => cases h

theorem Holds.put (file : ∀ access, f.node? p ≠ some (.directory access))
    (unslashed : path.slashed = false) (named : path.parts ≠ [])
    (located : f.locate [] path.parts = .ok p) (bytes : List UInt8) (access : Access) :
    (f.put p (.file bytes access)).Holds path p bytes access :=
  ⟨unslashed, named, locate_put file located, by rw [node?_put f _ p (root_ne file), if_pos rfl]⟩

/-- What is written is in the file, and nothing else has changed. -/
theorem exists_holds_of_write (h : f.write path bytes = .ok g) :
    ∃ p access, g.Holds path p bytes access ∧ access.error? = none ∧
      ∀ q, q ≠ p → g.node? q = f.node? q := by
  unfold write at h
  split at h
  · split at h <;> cases h
  · rename_i hslashed
    rw [Bool.not_eq_true] at hslashed
    split at h
    · cases h
    · rename_i hnamed
      split at h
      · cases h
      · rename_i p hplace
        have hothers (file : ∀ access, f.node? p ≠ some (.directory access)) (n : FileNode) :
            ∀ q, q ≠ p → (f.put p n).node? q = f.node? q :=
          fun q hq => by rw [node?_put f n q (root_ne file), if_neg hq]
        split at h
        · cases h
        · rename_i content access hnode
          split at h
          · rename_i hwritable
            obtain rfl := Except.ok.inj h
            have file : ∀ access, f.node? p ≠ some (.directory access) := by simp [hnode]
            exact ⟨p, access, .put file hslashed hnamed hplace bytes access,
              error?_of_isWritable hwritable, hothers file _⟩
          · cases h
        · rename_i hnode
          split at h
          · obtain rfl := Except.ok.inj h
            have file : ∀ access, f.node? p ≠ some (.directory access) := by simp [hnode]
            exact ⟨p, .full, .put file hslashed hnamed hplace bytes .full, rfl, hothers file _⟩
          · cases h

theorem read_of_write (h : f.write path bytes = .ok g) (sound : Sound path) :
    g.read path = .ok bytes := by
  obtain ⟨p, access, holds, readable, -⟩ := exists_holds_of_write h
  exact holds.read sound readable

theorem Holds.write (h : f.Holds path p old access) (bytes : List UInt8) :
    f.write path bytes = if access.isWritable then .ok (f.put p (.file bytes access))
      else .error .permissionDenied := by
  unfold Files.write
  simp [h.unslashed, h.named, h.located, h.node]

end MetricsProxy.Files
