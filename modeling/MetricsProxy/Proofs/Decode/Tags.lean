import Mathlib.Data.List.Pairwise
import MetricsProxy.Proofs.Decode.Grammar

/-!
# The last tag of a key wins

Tags are read from left to right, each into the dictionary that the tags before it have
made. So the dictionary of two lists of tokens is that of the first one overridden by that
of the second one (`tags_append_eq_ok_iff`), a key has the value of the last tag with that
key (`find?_eq_some_iff`), and where keys differ the order is of no account
(`tags_eq_of_perm`).
-/
namespace MetricsProxy.Decode
open Text

/-- What stands before the first `=` of a token, without its quotes. It may be empty. -/
inductive HasKey : Token → Token → Prop where
  | cut {left right key : Token} (first : '=' ∉ left) (before : Unquoted left key) :
      HasKey (left ++ '=' :: right) key

/-- A token that has a key which is not empty. -/
def Tagged (t : Token) : Prop := ∃ key, HasKey t key ∧ key ≠ []

def Apart (t u : Token) : Prop := ∀ key, HasKey t key → ¬ HasKey u key

/-- The last tag with this key has this value. -/
inductive LastTag (key value : String) : List Token → Prop where
  | here {t : Token} {ts : List Token} (tag : IsTag t (key, value))
      (last : ∀ u ∈ ts, ∀ other, ¬ IsTag u (key, other)) : LastTag key value (t :: ts)
  | later {t : Token} {ts : List Token} (h : LastTag key value ts) : LastTag key value (t :: ts)

variable {t u : Token} {ts more : List Token} {key value : String} {found : Tags}

/-! ## Keys of tokens -/

theorem hasKey_iff {key : Token} :
    HasKey t key ↔ ∃ cut, cutAt '=' t = some cut ∧ unquote cut.1 = key := by
  constructor
  · rintro ⟨first, before⟩
    exact ⟨_, cutAt_eq_some_iff.mpr ⟨rfl, first⟩, unquote_eq_iff.mpr before⟩
  · rintro ⟨⟨left, right⟩, hcut, hkey⟩
    obtain ⟨rfl, first⟩ := cutAt_eq_some_iff.mp hcut
    exact .cut first (unquote_eq_iff.mp hkey)

theorem exists_hasKey_iff : (∃ key, HasKey t key) ↔ '=' ∈ t := by
  rw [← not_iff_not, ← cutAt_eq_none_iff]
  simp only [hasKey_iff]
  cases cutAt '=' t with
  | none => simp
  | some cut => simp

theorem IsTag.hasKey (h : IsTag t (key, value)) : HasKey t key.toList := by
  cases h with
  | tag first before nonempty after => exact .cut first (by rwa [String.toList_ofList])

theorem IsTag.unique {entry entry' : String × String} (h : IsTag t entry) (h' : IsTag t entry') :
    entry = entry' :=
  Except.ok.inj ((tag_eq_ok_iff.mpr h).symm.trans (tag_eq_ok_iff.mpr h'))

theorem tagged_iff : Tagged t ↔ ∃ entry, IsTag t entry := by
  constructor
  · rintro ⟨key, ⟨first, before⟩, nonempty⟩
    exact ⟨_, .tag first before nonempty (unquote_eq_iff.mp rfl)⟩
  · rintro ⟨_, ⟨first, before, nonempty, after⟩⟩
    exact ⟨_, .cut first before, nonempty⟩

/-- The only fault of a token with an `=` is that its key is empty. -/
theorem hasKey_nil_of_not_tagged (equals : '=' ∈ t) (h : ¬ Tagged t) : HasKey t [] := by
  obtain ⟨key, hkey⟩ := exists_hasKey_iff.mpr equals
  by_cases empty : key = []
  · exact empty ▸ hkey
  · exact absurd ⟨key, hkey, empty⟩ h

theorem Apart.symm (h : Apart t u) : Apart u t := fun key hu ht => h key ht hu

instance : Std.Symm Apart := ⟨fun _ _ => Apart.symm⟩

/-! ## Success and failure -/

theorem exists_tags_iff : (∃ found, tags ts = .ok found) ↔ ∀ t ∈ ts, Tagged t := by
  rw [← (tags_dict_checked ts).all_iff, List.forall_mem_map]
  exact forall₂_congr fun t _ => tagged_iff.symm

theorem tags_eq_error_iff {e : DecodeError} : tags ts = .error e ↔
    ∃ before t after, ts = before ++ t :: after ∧ (∀ u ∈ before, Tagged u) ∧ ¬ Tagged t ∧
      e = .invalidTag (String.ofList t) := by
  rw [(tags_dict_checked ts).error_iff]
  constructor
  · intro h
    induction ts with
    | nil => cases h
    | cons t ts ih =>
        cases h with
        | here fails =>
            exact ⟨[], t, ts, rfl, List.forall_mem_nil _, fun tagged => fails (tagged_iff.mp tagged),
              rfl⟩
        | later holds h =>
            obtain ⟨before, u, after, rfl, all, fails, rfl⟩ := ih h
            exact ⟨t :: before, u, after, rfl, List.forall_mem_cons.mpr ⟨tagged_iff.mpr holds, all⟩,
              fails, rfl⟩
  · rintro ⟨before, t, after, rfl, all, fails, rfl⟩
    rw [List.map_append, FirstFailing.append_iff, List.forall_mem_map]
    exact .inr ⟨fun u hu => tagged_iff.mp (all u hu), .here fun holds => fails (tagged_iff.mpr holds)⟩

/-! ## What the dictionary answers -/

/-- Tokens that follow override those before them. -/
theorem tags_append_eq_ok_iff : tags (ts ++ more) = .ok found ↔
    ∃ first second, tags ts = .ok first ∧ tags more = .ok second ∧
      ∀ key, found.find? key = (second.find? key).or (first.find? key) := by
  unfold tags
  rw [List.mapM_append]
  cases ts.mapM tag with
  | error e => exact iff_of_false nofun (by rintro ⟨_, _, h, -⟩; cases h)
  | ok entries =>
      cases more.mapM tag with
      | error e => exact iff_of_false nofun (by rintro ⟨_, _, -, h, -⟩; cases h)
      | ok later =>
          constructor
          · intro h
            obtain rfl := Except.ok.inj h
            exact ⟨_, _, rfl, rfl, Dict.find?_ofList_append entries later⟩
          · rintro ⟨first, second, hfirst, hsecond, hfound⟩
            obtain rfl := Except.ok.inj hfirst
            obtain rfl := Except.ok.inj hsecond
            refine congrArg Except.ok (Dict.ext fun key => ?_)
            rw [hfound, Dict.find?_ofList_append]

theorem find?_of_cons (h : tags (t :: ts) = .ok found) :
    ∃ entry rest, IsTag t entry ∧ tags ts = .ok rest ∧
      ∀ key, found.find? key =
        (rest.find? key).or (if key = entry.1 then some entry.2 else none) := by
  obtain ⟨first, rest, hfirst, hrest, hfound⟩ :=
    tags_append_eq_ok_iff.mp (show tags ([t] ++ ts) = .ok found from h)
  obtain ⟨entries, hentries, rfl⟩ := ((tags_dict_checked [t]).ok_iff first).mp hfirst
  obtain ⟨entry, _, htag, hnil, rfl⟩ := List.forall₂_cons_left_iff.mp hentries
  obtain rfl := List.forall₂_nil_left_iff.mp hnil
  refine ⟨entry, rest, htag, hrest, fun key => ?_⟩
  rw [hfound, Dict.ofList, List.foldl_cons, List.foldl_nil, Dict.find?_insert, Dict.find?_empty]

theorem find?_eq_none_iff (h : tags ts = .ok found) (key : String) :
    found.find? key = none ↔ ∀ t ∈ ts, ∀ value, ¬ IsTag t (key, value) := by
  induction ts generalizing found with
  | nil =>
      obtain rfl := Except.ok.inj h
      exact iff_of_true rfl (List.forall_mem_nil _)
  | cons t ts ih =>
      obtain ⟨⟨name, given⟩, rest, htag, hrest, hfound⟩ := find?_of_cons h
      rw [hfound, Option.or_eq_none_iff, ih hrest, List.forall_mem_cons, and_comm]
      refine and_congr_left fun _ => ?_
      constructor
      · intro hkey value hvalue
        obtain ⟨rfl, rfl⟩ := Prod.mk.inj (htag.unique hvalue)
        simp at hkey
      · intro hnone
        refine if_neg fun heq : key = name => hnone given ?_
        rwa [heq]

theorem find?_eq_some_iff (h : tags ts = .ok found) (key value : String) :
    found.find? key = some value ↔ LastTag key value ts := by
  induction ts generalizing found with
  | nil =>
      obtain rfl := Except.ok.inj h
      exact iff_of_false nofun nofun
  | cons t ts ih =>
      obtain ⟨⟨name, given⟩, rest, htag, hrest, hfound⟩ := find?_of_cons h
      have hlast := find?_eq_none_iff hrest key
      rw [hfound, Option.or_eq_some_iff, ih hrest, hlast]
      constructor
      · rintro (h | ⟨last, hkey⟩)
        · exact .later h
        · obtain ⟨rfl, rfl⟩ : key = name ∧ given = value := by simpa using hkey
          exact .here htag last
      · intro h
        cases h with
        | here hvalue last =>
            obtain ⟨rfl, rfl⟩ := Prod.mk.inj (htag.unique hvalue)
            exact .inr ⟨last, if_pos rfl⟩
        | later h => exact .inl h

theorem contains_iff (h : tags ts = .ok found) (key : String) :
    found.contains key = true ↔ ∃ t ∈ ts, ∃ value, IsTag t (key, value) := by
  rw [Dict.contains, Option.isSome_iff_ne_none, ne_eq, find?_eq_none_iff h]
  push Not
  rfl

/-! ## Order -/

theorem LastTag.exists_mem (h : LastTag key value ts) : ∃ t ∈ ts, IsTag t (key, value) := by
  induction h with
  | @here t ts tag _ => exact ⟨t, List.mem_cons_self, tag⟩
  | later _ ih =>
      obtain ⟨t, ht, tag⟩ := ih
      exact ⟨t, List.mem_cons_of_mem _ ht, tag⟩

/-- If keys differ, every tag is the last of its key. -/
theorem lastTag_iff (apart : ts.Pairwise Apart) :
    LastTag key value ts ↔ ∃ t ∈ ts, IsTag t (key, value) := by
  refine ⟨LastTag.exists_mem, fun h => ?_⟩
  induction ts with
  | nil =>
      obtain ⟨t, ht, -⟩ := h
      cases ht
  | cons t ts ih =>
      obtain ⟨hfirst, hrest⟩ := List.pairwise_cons.mp apart
      obtain ⟨u, hu, tag⟩ := h
      rcases List.mem_cons.mp hu with rfl | hu
      · exact .here tag fun v hv other htag => hfirst v hv _ tag.hasKey htag.hasKey
      · exact .later (ih hrest ⟨u, hu, tag⟩)

/-- Tokens with different keys may come in any order. At most one of them is no tag, the one
with the empty key, so the fault is the same as well. -/
theorem tags_eq_of_perm {others : List Token} (perm : ts.Perm others)
    (equals : ∀ t ∈ ts, '=' ∈ t) (apart : ts.Pairwise Apart) : tags others = tags ts := by
  have apart' : others.Pairwise Apart := (perm.pairwise_iff Apart.symm).mp apart
  cases h : tags ts with
  | ok found =>
      have tagged := exists_tags_iff.mp ⟨found, h⟩
      obtain ⟨found', h'⟩ := exists_tags_iff.mpr fun t ht => tagged t (perm.mem_iff.mpr ht)
      rw [h']
      refine congrArg Except.ok (Dict.ext fun key => Option.ext fun value => ?_)
      rw [find?_eq_some_iff h', find?_eq_some_iff h, lastTag_iff apart', lastTag_iff apart]
      simp only [perm.mem_iff]
  | error e =>
      obtain ⟨before, t, after, hts, -, fails, rfl⟩ := tags_eq_error_iff.mp h
      have ht : t ∈ ts := hts ▸ List.mem_append_right before List.mem_cons_self
      cases h' : tags others with
      | ok found' =>
          have tagged := exists_tags_iff.mp ⟨found', h'⟩
          exact absurd (tagged t (perm.mem_iff.mp ht)) fails
      | error e' =>
          obtain ⟨before', u, after', hothers, -, fails', rfl⟩ := tags_eq_error_iff.mp h'
          have hu : u ∈ ts :=
            perm.mem_iff.mpr (hothers ▸ List.mem_append_right before' List.mem_cons_self)
          have hsame : t = u := by
            by_contra hne
            exact apart.forall ht hu hne []
              (hasKey_nil_of_not_tagged (equals t ht) fails)
              (hasKey_nil_of_not_tagged (equals u hu) fails')
          rw [hsame]

/-- Tags are read if every token has an `=` and before its first one a key that is not empty
without its quotes; else the first token that has not is reported. The dictionary has the
keys that occur, each with the value of its last tag. Two lists after one another are read if
both are, and the second one overrides the first one. Where keys differ the order is of no
account. -/
theorem tags_last_wins (ts : List Token) :
    ((∃ found, tags ts = .ok found) ↔ ∀ t ∈ ts, Tagged t) ∧
      (∀ e, tags ts = .error e ↔
        ∃ before t after, ts = before ++ t :: after ∧ (∀ u ∈ before, Tagged u) ∧ ¬ Tagged t ∧
          e = .invalidTag (String.ofList t)) ∧
      (∀ found, tags ts = .ok found → ∀ key,
        (found.contains key = true ↔ ∃ t ∈ ts, ∃ value, IsTag t (key, value)) ∧
          ∀ value, found.find? key = some value ↔ LastTag key value ts) ∧
      (∀ more found, tags (ts ++ more) = .ok found ↔
        ∃ first second, tags ts = .ok first ∧ tags more = .ok second ∧
          ∀ key, found.find? key = (second.find? key).or (first.find? key)) ∧
      ∀ others, ts.Perm others → (∀ t ∈ ts, '=' ∈ t) → ts.Pairwise Apart →
        tags others = tags ts :=
  ⟨exists_tags_iff, fun _ => tags_eq_error_iff,
    fun _ h key => ⟨contains_iff h key, find?_eq_some_iff h key⟩,
    fun _ _ => tags_append_eq_ok_iff, fun _ => tags_eq_of_perm⟩

/-- A key is the same with quotes and without, and is cut at the first `=`. -/
example : tags ["\"dc\"=a".toList, "k=1=2".toList, "dc=".toList] =
    .ok (Dict.ofList [("dc", ""), ("k", "1=2")]) := by
  decide +kernel

end MetricsProxy.Decode
