import Mathlib.Data.List.TakeWhile
import MetricsProxy.Delivery.Request
import MetricsProxy.Proofs.Text

/-!
# Where requests go

An address is read by taking it apart and resolving its path. Nothing of this shows
in an address that is made of words behind a host (`Url.parse?_words`). So the request
that pushes a unit goes to a path that names the agent and the unit, and the rest is
in its query (`Endpoint.Pushes.target_of_plain`).
-/
namespace MetricsProxy.Delivery
open Text

namespace Url

/-- Letters, digits and hyphens stand for themselves wherever they are in an address. -/
def IsWordChar (c : Char) : Prop := c.isAlphanum = true ∨ c = '-'

instance (c : Char) : Decidable (IsWordChar c) :=
  inferInstanceAs (Decidable (c.isAlphanum = true ∨ c = '-'))

def IsWord (cs : List Char) : Prop := ∀ c ∈ cs, IsWordChar c

instance (cs : List Char) : Decidable (IsWord cs) :=
  List.decidableBAll IsWordChar cs

/-- Host and port with which an address may begin. -/
def IsPlace (cs : List Char) : Prop :=
  isAuthority cs = true ∧ cs.all (fun c => isHostChar c && !isSlash c) = true

instance (cs : List Char) : Decidable (IsPlace cs) :=
  inferInstanceAs (Decidable (isAuthority cs = true ∧ _))

theorem IsPlace.host {c : Char} {cs : List Char} (h : IsPlace cs) (hc : c ∈ cs) :
    isHostChar c = true ∧ isSlash c = false := by
  simpa using List.all_eq_true.mp h.2 c hc

def pathText (words : List (List Char)) : List Char := words.flatMap fun w => '/' :: w

/-- What reading an address looks at in a character of a path. -/
structure Inert (c : Char) : Prop where
  slash : isSlash c = false
  path : isPathChar c = true
  dot : c.toLower ≠ '.'
  percent : c.toLower ≠ '%'

variable {c : Char} {cs word : List Char} {words : List (List Char)}

theorem IsWordChar.inert (h : IsWordChar c) : Inert c := by
  rcases h with h | rfl
  · exact ⟨of_isAlphanum (P := fun c => isSlash c = false) (by decide +kernel) h,
      of_isAlphanum (P := fun c => isPathChar c = true) (by decide +kernel) h,
      of_isAlphanum (P := fun c => c.toLower ≠ '.') (by decide +kernel) h,
      of_isAlphanum (P := fun c => c.toLower ≠ '%') (by decide +kernel) h⟩
  · exact ⟨by decide, by decide, by decide, by decide⟩

theorem isDot_of_isWord (h : IsWord word) :
    isSingleDot word = false ∧ isDoubleDot word = false := by
  cases word with
  | nil => exact ⟨rfl, rfl⟩
  | cons c cs =>
      have inert := (h c List.mem_cons_self).inert
      have dot := inert.dot
      have percent := inert.percent
      simp [isSingleDot, isDoubleDot, lower, dot, percent]

theorem resolveSegments_words (h : ∀ w ∈ words, IsWord w) (kept : List (List Char)) :
    resolveSegments kept words = words.reverse ++ kept := by
  induction words generalizing kept with
  | nil => rfl
  | cons w words ih =>
      obtain ⟨single, double⟩ := isDot_of_isWord (h w List.mem_cons_self)
      have hrest := ih fun v hv => h v (List.mem_cons_of_mem _ hv)
      cases words with
      | nil => simp [resolveSegments, single, double]
      | cons v words =>
          rw [resolveSegments, if_neg (by simp [double]), if_neg (by simp [single]), hrest]
          · simp
          · exact List.cons_ne_nil v words

theorem pieces_pathText (h : ∀ w ∈ words, IsWord w) :
    pieces isSlash (pathText words) = [] :: words := by
  induction words with
  | nil => rfl
  | cons w words ih =>
      have hrest := ih fun v hv => h v (List.mem_cons_of_mem _ hv)
      have free : ∀ c ∈ w, isSlash c = false :=
        fun c hc => (h w List.mem_cons_self c hc).inert.slash
      obtain ⟨v, vs, hpieces, happend⟩ := pieces_append_left free (pathText words)
      rw [hrest] at hpieces
      obtain ⟨rfl, rfl⟩ := List.cons.inj hpieces
      rw [List.append_nil] at happend
      have slash : isSlash '/' = true := rfl
      rw [pathText, List.flatMap_cons, List.cons_append, pieces, if_pos slash]
      exact congrArg _ happend

theorem encodeWith_word (h : IsWord word) : encodeWith isPathChar word = word := by
  induction word with
  | nil => rfl
  | cons c cs ih =>
      have stays := (h c List.mem_cons_self).inert.path
      rw [encodeWith, List.flatMap_cons, if_pos stays]
      exact congrArg _ (ih fun d hd => h d (List.mem_cons_of_mem _ hd))

theorem pathOf_words (some : words ≠ []) (h : ∀ w ∈ words, IsWord w) :
    pathOf (pathText words) = pathText words := by
  have hsome : words.isEmpty = false := by simpa using some
  rw [pathOf, pieces_pathText h]
  simp only [List.drop_succ_cons, List.drop_zero, hsome, Bool.false_eq_true, if_false]
  rw [resolveSegments_words h, List.append_nil, List.reverse_reverse, pathText]
  exact List.flatMap_congr fun w hw => by rw [encodeWith_word (h w hw)]

theorem forall_mem_pathText (h : ∀ w ∈ words, IsWord w) :
    ∀ c ∈ pathText words, isPathChar c = true := by
  intro c hc
  obtain ⟨w, hw, hc⟩ := List.mem_flatMap.mp hc
  rcases List.mem_cons.mp hc with rfl | hc
  · rfl
  · exact (h w hw c hc).inert.path

theorem dropWhile_of_forall {p : Char → Bool} (h : ∀ c ∈ cs, p c = false) :
    cs.dropWhile p = cs := by
  cases cs with
  | nil => rfl
  | cons c cs => rw [List.dropWhile_cons_of_neg (by simp [h c List.mem_cons_self])]

/-- Blanks and breaks are taken out of an address, but there are none in plain characters. -/
theorem strip_of_plain (h : ∀ c ∈ cs, isPlain c = true) :
    (((cs.dropWhile fun c => decide (c.toNat ≤ 0x20)).reverse.dropWhile fun c =>
      decide (c.toNat ≤ 0x20)).reverse.filter fun c => !(c == '\t' || c == '\n' || c == '\r')) =
        cs := by
  have hplain : ∀ c ∈ cs, 0x20 < c.toNat := fun c hc => (of_decide_eq_true (h c hc)).1
  have hmargin : ∀ c ∈ cs, decide (c.toNat ≤ 0x20) = false := fun c hc => by
    have := hplain c hc
    simpa using this
  rw [dropWhile_of_forall hmargin,
    dropWhile_of_forall fun c hc => hmargin c (List.mem_reverse.mp hc), List.reverse_reverse,
    List.filter_eq_self]
  intro c hc
  have hlow : ∀ d : Char, d.toNat ≤ 0x20 → c ≠ d := by
    rintro d hd rfl
    exact Nat.not_le_of_lt (hplain c hc) hd
  simp [hlow '\t' (by decide), hlow '\n' (by decide), hlow '\r' (by decide)]

theorem ne_of_isHostChar (h : isHostChar c = true) : isPlain c = true ∧ c ≠ '?' ∧ c ≠ '#' := by
  rw [isHostChar, Bool.and_eq_true] at h
  refine ⟨h.1, ?_, ?_⟩ <;> rintro rfl <;> exact absurd h.2 (by decide)

theorem ne_of_isPathChar (h : isPathChar c = true) : isPlain c = true ∧ c ≠ '?' ∧ c ≠ '#' := by
  rw [isPathChar, Bool.and_eq_true] at h
  refine ⟨h.1, ?_, ?_⟩ <;> rintro rfl <;> exact absurd h.2 (by decide)

/-- An address is its scheme, a host and a path, if nothing follows these. -/
theorem parse?_of_place {scheme authority path : List Char}
    (web : scheme = "http".toList ∨ scheme = "https".toList) (place : IsPlace authority)
    (starts : ∃ cs, path = '/' :: cs) (h : ∀ c ∈ path, isPathChar c = true) :
    parse? (String.ofList (scheme ++ ':' :: '/' :: '/' :: (authority ++ path))) =
      some
        { scheme := String.ofList scheme
          authority := String.ofList authority
          path := pathOf path
          query := none } := by
  have hscheme : scheme.all isPlain = true ∧ ':' ∉ scheme ∧ lower scheme = scheme ∧
      (String.ofList scheme = "http" ∨ String.ofList scheme = "https") := by
    rcases web with rfl | rfl <;> decide
  obtain ⟨hplain, colon, hlower, known⟩ := hscheme
  have hrest : ∀ c ∈ authority ++ path, isPlain c = true ∧ c ≠ '?' ∧ c ≠ '#' := by
    intro c hc
    rcases List.mem_append.mp hc with hc | hc
    · exact ne_of_isHostChar (place.host hc).1
    · exact ne_of_isPathChar (h c hc)
  have hall : ∀ c ∈ scheme ++ ':' :: '/' :: '/' :: (authority ++ path), isPlain c = true := by
    intro c hc
    rcases List.mem_append.mp hc with hc | hc
    · exact List.all_eq_true.mp hplain c hc
    · rcases List.mem_cons.mp hc with rfl | hc
      · rfl
      rcases List.mem_cons.mp hc with rfl | hc
      · rfl
      rcases List.mem_cons.mp hc with rfl | hc
      · rfl
      exact (hrest c hc).1
  have hslashes : ('/' :: '/' :: (authority ++ path)).dropWhile isSlash = authority ++ path := by
    have hhost : ∃ d ds, authority = d :: ds ∧ isSlash d = false := by
      cases authority with
      | nil => exact absurd place.1 (by decide)
      | cons d ds => exact ⟨d, ds, rfl, (place.host List.mem_cons_self).2⟩
    obtain ⟨d, ds, rfl, hd⟩ := hhost
    rw [List.dropWhile_cons_of_pos rfl, List.dropWhile_cons_of_pos rfl, List.cons_append,
      List.dropWhile_cons_of_neg (by simp [hd])]
  have hfragment : (authority ++ path).takeWhile (· != '#') = authority ++ path :=
    List.takeWhile_eq_self_iff.mpr fun c hc => by simpa using (hrest c hc).2.2
  have hauthority : (authority ++ path).takeWhile (fun c => !(isSlash c || c == '?')) =
      authority := by
    obtain ⟨cs, rfl⟩ := starts
    rw [List.takeWhile_append_of_pos fun c hc => ?_, List.takeWhile_cons_of_neg (by decide),
      List.append_nil]
    have hquery := (ne_of_isHostChar (place.host hc).1).2.1
    simp [(place.host hc).2, hquery]
  have hpath : path.takeWhile (· != '?') = path :=
    List.takeWhile_eq_self_iff.mpr fun c hc => by simpa using (ne_of_isPathChar (h c hc)).2.1
  unfold parse?
  dsimp only
  rw [String.toList_ofList, strip_of_plain hall, cutAt_eq_some_iff.mpr ⟨rfl, colon⟩]
  dsimp only
  rw [hlower, if_pos known, hslashes, hfragment, hauthority, List.drop_left, hpath,
    List.drop_length, if_pos place.1]
  rfl

/-- An address of words behind a host is taken as it is written. -/
theorem parse?_words {scheme authority : String} (web : scheme = "http" ∨ scheme = "https")
    (place : IsPlace authority.toList) (some : words ≠ []) (h : ∀ w ∈ words, IsWord w) :
    parse? (scheme ++ "://" ++ authority ++ String.ofList (pathText words)) =
      Option.some
        { scheme := scheme
          authority := authority
          path := pathText words
          query := none } := by
  have starts : ∃ cs, pathText words = '/' :: cs := by
    obtain ⟨w, ws, rfl⟩ := List.exists_cons_of_ne_nil some
    exact ⟨_, rfl⟩
  have web' : scheme.toList = "http".toList ∨ scheme.toList = "https".toList :=
    web.imp (congrArg _) (congrArg _)
  have hread := parse?_of_place web' place starts (forall_mem_pathText h)
  have htext : String.ofList (scheme.toList ++ ':' :: '/' :: '/' :: (authority.toList ++
      pathText words)) = scheme ++ "://" ++ authority ++ String.ofList (pathText words) := by
    apply String.toList_inj.mp
    simp
  rw [htext, String.ofList_toList, String.ofList_toList, pathOf_words some h] at hread
  exact hread

end Url

namespace Endpoint
variable {e : Endpoint} {id : String} {unit : WorkUnit} {url : Url} {q : Request}

/-- What a push says in its query. -/
def pushForm (e : Endpoint) : List (String × String) :=
  [("format", Defaults.pushFormat), ("hostname", e.hostname), ("version", e.version)]

/-- The request that pushes the unit with this id, and where it goes: the address names the
agent and the unit, and the body has the lines of the unit. -/
structure Pushes (e : Endpoint) (id : String) (unit : WorkUnit) (url : Url) (q : Request) :
    Prop where
  address : ∃ place, Url.parse? (e.server ++ s!"/daemon/{e.agentId}/pushdata/{id}") = some place ∧
    url = place.withForm e.pushForm
  headers : isHeaderText e.authorization = true ∧ isHeaderText e.userAgent = true
  request : q =
    { method := "POST"
      target := url.target
      authorization := headerValue e.authorization
      userAgent := headerValue e.userAgent
      contentType := "text/plain"
      contentEncoding := e.compression.map fun _ => "zstd"
      body := unit.body e.hostname }

theorem push?_eq_some_iff : e.push? id unit = some (url, q) ↔ e.Pushes id unit url q := by
  unfold push? post?
  constructor
  · intro h
    split at h
    · cases h
    · rename_i place hplace
      split at h
      · rename_i headers
        obtain ⟨rfl, rfl⟩ := Prod.mk.inj (Option.some.inj h)
        exact ⟨⟨place, hplace, rfl⟩, Bool.and_eq_true_iff.mp headers, rfl⟩
      · cases h
  · rintro ⟨⟨place, hplace, rfl⟩, headers, rfl⟩
    rw [hplace]
    dsimp only
    rw [if_pos (Bool.and_eq_true_iff.mpr headers)]
    rfl

/-- A server that is written as scheme and host, for an agent and a unit whose ids are words. -/
structure Plain (e : Endpoint) (id scheme authority : String) : Prop where
  server : e.server = scheme ++ "://" ++ authority
  web : scheme = "http" ∨ scheme = "https"
  place : Url.IsPlace authority.toList
  agent : Url.IsWord e.agentId.toList
  unit : Url.IsWord id.toList

theorem Pushes.target_of_plain {scheme authority : String} (h : e.Pushes id unit url q)
    (plain : e.Plain id scheme authority) :
    url.scheme = scheme ∧ url.authority = authority ∧
      q.target = s!"/daemon/{e.agentId}/pushdata/{id}?" ++
        String.ofList (Url.formText e.pushForm) := by
  let words := ["daemon".toList, e.agentId.toList, "pushdata".toList, id.toList]
  have hwords : ∀ w ∈ words, Url.IsWord w := by
    simp only [words, List.forall_mem_cons]
    exact ⟨by decide, plain.agent, by decide, plain.unit, nofun⟩
  have hread := Url.parse?_words plain.web plain.place (List.cons_ne_nil _ _) hwords
  have htext : scheme ++ "://" ++ authority ++ String.ofList (Url.pathText words) =
      e.server ++ s!"/daemon/{e.agentId}/pushdata/{id}" := by
    rw [plain.server]
    apply String.toList_inj.mp
    simp [Url.pathText, words, toString]
  obtain ⟨place, hplace, rfl⟩ := h.address
  rw [← htext, hread] at hplace
  obtain rfl := Option.some.inj hplace
  rw [h.request]
  refine ⟨rfl, rfl, ?_⟩
  apply String.toList_inj.mp
  simp [Url.target, Url.withForm, Url.pathText, toString]

end Endpoint
end MetricsProxy.Delivery
