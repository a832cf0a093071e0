import MetricsProxy.Identity
import MetricsProxy.Proofs.Files
import MetricsProxy.Proofs.Text

/-!
# The id stays the same

An id that is found has no blanks at its ends, and the file that it was found in is not
touched, so it is found again; a fresh id is found because what is written is read
(`createOrGet_of_ok`). From one later call all of them follow (`restarts_of_stored`). What is
drawn at random has no blanks at all (`solid_ofRandom`).
-/
namespace MetricsProxy.Identity
open Text Files

/-- Not empty and without blanks, as fresh ids are. -/
structure Solid (id : String) : Prop where
  nonempty : id ≠ ""
  solid : ∀ c ∈ id.toList, isBlank c = false

/-- One call after another, each with a fresh id of its own at hand: the files in the end, and
what each call answers. -/
def restarts (path : FilePath) : Files → List String → Files × List (Except FileError String)
  | f, [] => (f, [])
  | f, fresh :: later =>
      let o := createOrGet f path fresh
      let r := restarts path o.files later
      (r.1, o.result :: r.2)

variable {f g : Files} {path : FilePath} {fresh id text : String} {e : FileError}

/-! ## Texts in files -/

theorem fromUTF8?_toUTF8 (s : String) :
    String.fromUTF8? (ByteArray.mk s.toUTF8.data.toList.toArray) = some s := by
  have hbytes : ByteArray.mk s.toUTF8.data.toList.toArray = s.toUTF8 := by simp
  have hvalid : s.toUTF8.IsValidUTF8 := s.isValidUTF8
  rw [hbytes, String.fromUTF8?, dif_pos hvalid]
  rfl

theorem readText_of_read (h : f.read path = .ok fresh.toUTF8.data.toList) :
    readText f path = .ok fresh := by
  rw [readText, h]
  simp only [fromUTF8?_toUTF8]

theorem exists_read_of_readText (h : readText f path = .ok text) :
    ∃ bytes, f.read path = .ok bytes := by
  unfold readText at h
  split at h
  · cases h
  · rename_i bytes hread
    exact ⟨bytes, hread⟩

theorem read_of_readText_notFound (h : readText f path = .error .notFound) :
    f.read path = .error .notFound := by
  unfold readText at h
  split at h
  · rename_i hread
    obtain rfl := Except.error.inj h
    exact hread
  · split at h <;> cases h

theorem trimText_eq_empty_iff : trimText text = "" ↔ trim text.toList = [] := by
  rw [trimText, ← String.toList_inj, String.toList_ofList]
  rfl

theorem trimText_of_trimmed (h : Trimmed id.toList) : trimText id = id := by
  rw [trimText, h.trim_eq, String.ofList_toList]

/-! ## One call -/

theorem createOrGet_of_found (found : readText f path = .ok text) (some_ : trimText text ≠ "")
    (fresh : String) : createOrGet f path fresh = ⟨f, .ok (trimText text), false⟩ := by
  have hsome : trim text.toList ≠ [] := fun h => some_ (trimText_eq_empty_iff.mpr h)
  simp [createOrGet, found, hsome]

theorem createOrGet_of_blank (found : readText f path = .ok text) (blank : trimText text = "")
    (fresh : String) : createOrGet f path fresh = create f path fresh := by
  simp [createOrGet, found, trimText_eq_empty_iff.mp blank]

theorem createOrGet_of_missing (missing : readText f path = .error .notFound) (fresh : String) :
    createOrGet f path fresh = create f path fresh := by
  simp [createOrGet, missing]

theorem createOrGet_of_unreadable (unreadable : readText f path = .error e) (there : e ≠ .notFound)
    (fresh : String) : createOrGet f path fresh = ⟨f, .error e, false⟩ := by
  unfold createOrGet
  rw [unreadable]
  cases e with
  | notFound => exact absurd rfl there
  | _ => rfl

/-! ## A fresh id -/

/-- The id is in the file, and all else that was there is as it was. -/
structure Replaced (f : Files) (path : FilePath) (fresh : String) (g : Files) : Prop where
  read : readText g path = .ok fresh
  others : ∃ p, g.locate [] path.parts = .ok p ∧
    ∀ q n, q ≠ p → f.node? q = some n → g.node? q = some n

theorem replaced_of_write {between : Files} (sound : Sound path) (kept : Keeps f between)
    (h : between.write path fresh.toUTF8.data.toList = .ok g) : Replaced f path fresh g := by
  obtain ⟨p, access, holds, readable, hothers⟩ := exists_holds_of_write h
  refine ⟨readText_of_read (holds.read sound readable), p, holds.located, fun q n hq hn => ?_⟩
  rw [hothers q hq]
  exact kept q n hn

/-- What is in the way of a fresh id: a directory or the file cannot be written. -/
def Refused (f : Files) (path : FilePath) (fresh : String) (g : Files) (e : FileError) : Prop :=
  f.createDirectories [] path.parentParts = (g, .error e) ∨
    f.createDirectories [] path.parentParts = (g, .ok ()) ∧
      g.write path fresh.toUTF8.data.toList = .error e

theorem create_cases (sound : Sound path) (f : Files) (fresh : String) :
    (∃ g, Replaced f path fresh g ∧ create f path fresh = ⟨g, .ok fresh, true⟩) ∨
      ∃ g e, Keeps f g ∧ Refused f path fresh g e ∧ create f path fresh = ⟨g, .error e, true⟩ := by
  have kept := createDirectories_kept f [] path.parentParts
  unfold create Refused
  rcases hdirectories : f.createDirectories [] path.parentParts with ⟨g, e | u⟩
  · rw [hdirectories] at kept
    exact .inr ⟨g, e, kept, .inl rfl, rfl⟩
  · rw [hdirectories] at kept
    cases hwrite : g.write path fresh.toUTF8.data.toList with
    | error e => exact .inr ⟨g, e, kept, .inr ⟨rfl, hwrite⟩, by simp only [hwrite]⟩
    | ok h => exact .inl ⟨h, replaced_of_write sound kept hwrite, by simp only [hwrite]⟩

/-- Where there is a file its directories need not be created. -/
theorem create_of_read {bytes : List UInt8} (h : f.read path = .ok bytes) (fresh : String) :
    (∃ g, Replaced f path fresh g ∧ create f path fresh = ⟨g, .ok fresh, true⟩) ∨
      create f path fresh = ⟨f, .error .permissionDenied, true⟩ := by
  obtain ⟨p, access, holds, -⟩ := exists_holds_of_read h
  have hdirectories : f.createDirectories [] path.parentParts = (f, .ok ()) :=
    createDirectories_of_locate holds.located
  have hwrite := holds.write fresh.toUTF8.data.toList
  by_cases hwritable : access.isWritable = true
  · rw [if_pos hwritable] at hwrite
    refine .inl ⟨_, replaced_of_write (sound_of_read (.inl ⟨bytes, h⟩)) (.refl f) hwrite, ?_⟩
    simp only [create, hdirectories, hwrite]
  · rw [if_neg hwritable] at hwrite
    exact .inr (by simp only [create, hdirectories, hwrite])

/-! ## Later calls -/

/-- The id is in the file, perhaps between blanks. -/
structure Stored (f : Files) (path : FilePath) (id : String) : Prop where
  nonempty : id ≠ ""
  trimmed : Trimmed id.toList
  read : ∃ text, readText f path = .ok text ∧ trimText text = id

/-- An id that was answered is in the file. -/
theorem createOrGet_of_ok (solid : Solid fresh) (h : (createOrGet f path fresh).result = .ok id) :
    Stored (createOrGet f path fresh).files path id := by
  have hcreate (sound : Sound path) (hcall : createOrGet f path fresh = create f path fresh) :
      Stored (createOrGet f path fresh).files path id := by
    rw [hcall] at h ⊢
    rcases create_cases sound f fresh with ⟨g, replaced, heq⟩ | ⟨g, e, -, -, heq⟩
    · rw [heq] at h ⊢
      obtain rfl := Except.ok.inj h
      have trimmed := trimmed_of_solid solid.solid
      exact ⟨solid.nonempty, trimmed, fresh, replaced.read, trimText_of_trimmed trimmed⟩
    · rw [heq] at h
      cases h
  cases hread : readText f path with
  | ok text =>
      by_cases blank : trimText text = ""
      · exact hcreate (sound_of_read (.inl (exists_read_of_readText hread)))
          (createOrGet_of_blank hread blank fresh)
      · rw [createOrGet_of_found hread blank] at h ⊢
        obtain rfl := Except.ok.inj h
        refine ⟨blank, ?_, text, hread, rfl⟩
        rw [trimText, String.toList_ofList]
        exact trimmed_trim _
  | error e =>
      by_cases missing : e = .notFound
      · subst missing
        exact hcreate (sound_of_read (.inr (read_of_readText_notFound hread)))
          (createOrGet_of_missing hread fresh)
      · rw [createOrGet_of_unreadable hread missing] at h
        cases h

theorem createOrGet_of_stored (stored : Stored f path id) (fresh : String) :
    createOrGet f path fresh = ⟨f, .ok id, false⟩ := by
  obtain ⟨text, hread, rfl⟩ := stored.read
  exact createOrGet_of_found hread stored.nonempty fresh

theorem restarts_of_stored (stored : Stored f path id) (later : List String) :
    restarts path f later = (f, later.map fun _ => .ok id) := by
  induction later with
  | nil => rfl
  | cons fresh later ih =>
      simp only [restarts, createOrGet_of_stored stored, ih, List.map_cons]

/-- The id stays the same. An id that is answered is not empty and has no blanks at its ends,
and every later call answers it again and changes nothing. A text that is not blank is never
touched, and what is left of it between its blanks is the id. A file that is blank is made to
hold the fresh id and nothing else, unless it may not be written; so is one that is missing,
unless its directories or the file cannot be written. What was there otherwise is kept, and
where reading ends with any other error nothing is changed. -/
theorem id_survives_restarts (f : Files) (path : FilePath) {fresh : String} (solid : Solid fresh) :
    let o := createOrGet f path fresh
    (∀ id, o.result = .ok id → id ≠ "" ∧ Trimmed id.toList ∧
      ∀ later, restarts path o.files later = (o.files, later.map fun _ => .ok id)) ∧
    (∀ text, readText f path = .ok text → trimText text ≠ "" →
      o = ⟨f, .ok (trimText text), false⟩) ∧
    (∀ text, readText f path = .ok text → trimText text = "" →
      (∃ g, Replaced f path fresh g ∧ o = ⟨g, .ok fresh, true⟩) ∨
        o = ⟨f, .error .permissionDenied, true⟩) ∧
    (readText f path = .error .notFound →
      (∃ g, Replaced f path fresh g ∧ o = ⟨g, .ok fresh, true⟩) ∨
        ∃ g e, Keeps f g ∧ Refused f path fresh g e ∧ o = ⟨g, .error e, true⟩) ∧
    ∀ e, readText f path = .error e → e ≠ .notFound → o = ⟨f, .error e, false⟩ := by
  intro o
  refine ⟨?_, ?_, ?_, ?_, ?_⟩
  · intro id h
    have stored := createOrGet_of_ok solid h
    exact ⟨stored.nonempty, stored.trimmed, restarts_of_stored stored⟩
  · intro text found some_
    exact createOrGet_of_found found some_ fresh
  · intro text found blank
    obtain ⟨bytes, hread⟩ := exists_read_of_readText found
    have hcall : o = create f path fresh := createOrGet_of_blank found blank fresh
    rw [hcall]
    exact create_of_read hread fresh
  · intro missing
    have hcall : o = create f path fresh := createOrGet_of_missing missing fresh
    rw [hcall]
    exact create_cases (sound_of_read (.inr (read_of_readText_notFound missing))) f fresh
  · intro e unreadable there
    exact createOrGet_of_unreadable unreadable there fresh

/-! ## Random ids -/

theorem isBlank_digitChar (n : Nat) : isBlank n.digitChar = false := by
  by_cases small : n < 16
  · have hall : ∀ n < 16, isBlank (Nat.digitChar n) = false := by decide
    exact hall n small
  · unfold Nat.digitChar
    iterate 16 rw [if_neg (by omega)]
    rfl

/-- A random id is written with digits and dashes. -/
theorem solid_ofRandom (bytes : List UInt8) : Solid (ofRandom bytes) where
  nonempty := by
    rw [ofRandom, ← String.toList_inj.ne, String.toList_ofList]
    simp
  solid := by
    have hdash : isBlank '-' = false := rfl
    have hhex (bs : List Nat) : ∀ c ∈ bs.flatMap fun b => [Nat.digitChar (b / 16),
        Nat.digitChar (b % 16)], isBlank c = false := by
      intro c hc
      obtain ⟨b, -, hc⟩ := List.mem_flatMap.mp hc
      simp only [List.mem_cons, List.not_mem_nil, or_false] at hc
      rcases hc with rfl | rfl
      · exact isBlank_digitChar _
      · exact isBlank_digitChar _
    rw [ofRandom, String.toList_ofList]
    simp only [List.forall_mem_append, List.forall_mem_cons]
    exact ⟨⟨⟨⟨hhex _, hdash, hhex _⟩, hdash, hhex _⟩, hdash, hhex _⟩, hdash, hhex _⟩

/-- One file, which may not be read. -/
def sealed : Files :=
  ⟨[(["sealed"], .file [] (.closed .permissionDenied (by decide)))], .full⟩

/-- A directory is created for a fresh id; a file that may not be read is left alone. -/
theorem id_survives_restarts_newDirectory :
    Solid (ofRandom (List.replicate 16 0xab)) ∧
      let path := FilePath.ofString "state/./id"
      let fresh := ofRandom (List.replicate 16 0xab)
      let o := createOrGet sealed path fresh
      o.result = .ok fresh ∧
        restarts path o.files ["other", "third"] = (o.files, [.ok fresh, .ok fresh]) ∧
        createOrGet sealed (.ofString "sealed") fresh =
          ⟨sealed, .error .permissionDenied, false⟩ := by
  have solid := solid_ofRandom (List.replicate 16 0xab)
  refine ⟨solid, ?_⟩
  intro path fresh o
  have hresult : o.result = .ok fresh := rfl
  have later := ((id_survives_restarts sealed path solid).1 fresh hresult).2.2
  have unreadable : readText sealed (.ofString "sealed") = .error .permissionDenied := rfl
  have left := (id_survives_restarts sealed (.ofString "sealed") solid).2.2.2.2
  exact ⟨hresult, later ["other", "third"], left _ unreadable (by decide)⟩

end MetricsProxy.Identity
