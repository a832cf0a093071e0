import MetricsProxy.Listener.LineReader

/-!
# Framing equals the split at newlines

A byte stream falls into segments, each ending with its newline; only the last
one may lack it. A reader gives one frame for each segment, in order, however
the stream is cut into chunks: the segment itself if it has at most `limit`
bytes before its newline, else the mark of a line that is too long.

The state of a reader within a line is a function of the bytes of that line
alone (`LineReader.after`). One chunk either extends these bytes or completes
the line (`feed_after`, `feed_after_newline`), and every statement about whole
streams follows by induction on the chunks.
-/
namespace MetricsProxy

/-- The segments of a byte stream, each with its newline. -/
def segments : List UInt8 → List (List UInt8)
  | [] => []
  | b :: bs =>
      if b = newline then [b] :: segments bs
      else
        match segments bs with
        | [] => [[b]]
        | s :: ss => (b :: s) :: ss

theorem segments_newline (body rest : List UInt8) (h : newline ∉ body) :
    segments (body ++ newline :: rest) = (body ++ [newline]) :: segments rest := by
  induction body with
  | nil => simp [segments]
  | cons b body ih =>
      have hb : b ≠ newline := fun e => h (by simp [e])
      simp only [List.cons_append, segments, if_neg hb, ih fun m => h (by simp [m])]

theorem segments_tail (tail : List UInt8) (h : newline ∉ tail) (hne : tail ≠ []) :
    segments tail = [tail] := by
  induction tail with
  | nil => exact absurd rfl hne
  | cons b tail ih =>
      have hb : b ≠ newline := fun e => h (by simp [e])
      simp only [segments, if_neg hb]
      cases tail with
      | nil => rfl
      | cons c tail => rw [ih (fun m => h (by simp [m])) (by simp)]

/-- No byte of a stream is lost or moved by the split. -/
theorem flatten_segments (bs : List UInt8) : (segments bs).flatten = bs := by
  induction bs with
  | nil => rfl
  | cons b bs ih =>
      simp only [segments]
      split
      · simp [ih]
      · split
        · rename_i h
          simpa [h] using ih
        · rename_i s ss h
          simpa [h] using ih

/-- A stream that ends where a line ends. -/
def LineEnded (bs : List UInt8) : Prop := bs = [] ∨ ∃ body, bs = body ++ [newline]

theorem segments_append {bs : List UInt8} (h : LineEnded bs) (rest : List UInt8) :
    segments (bs ++ rest) = segments bs ++ segments rest := by
  rcases h with rfl | ⟨body, rfl⟩
  · rfl
  · induction body with
    | nil => simp [segments]
    | cons b body ih =>
        by_cases hb : b = newline
        · simp only [List.cons_append, segments, if_pos hb, ih]
        · have hne : segments (body ++ [newline]) ≠ [] := by
            intro hnil
            have hflat := flatten_segments (body ++ [newline])
            simp [hnil] at hflat
          obtain ⟨s, ss, hs⟩ := List.exists_cons_of_ne_nil hne
          simp only [List.cons_append, segments, if_neg hb, ih, hs]

/-- The bytes of a segment before its newline. -/
def lineContent (segment : List UInt8) : List UInt8 :=
  if segment.getLast? = some newline then segment.dropLast else segment

theorem lineContent_newline (body : List UInt8) : lineContent (body ++ [newline]) = body := by
  simp [lineContent]

theorem getLast?_ne_newline {bs : List UInt8} (h : newline ∉ bs) :
    bs.getLast? ≠ some newline := fun e => h (List.mem_of_getLast? e)

theorem lineContent_tail {tail : List UInt8} (h : newline ∉ tail) : lineContent tail = tail :=
  if_neg (getLast?_ne_newline h)

/-- The frame that a segment is due. -/
def Frame.ofSegment (limit : Nat) (segment : List UInt8) : Frame :=
  if (lineContent segment).length ≤ limit then .line segment else .tooLong

namespace LineReader

theorem afterNewline?_newline (body rest : List UInt8) (h : newline ∉ body) :
    afterNewline? (body ++ newline :: rest) = some rest := by
  induction body with
  | nil => simp [afterNewline?]
  | cons b body ih =>
      have hb : b ≠ newline := fun e => h (by simp [e])
      simp only [List.cons_append, afterNewline?, if_neg hb]
      exact ih fun m => h (by simp [m])

theorem afterNewline?_tail (tail : List UInt8) (h : newline ∉ tail) :
    afterNewline? tail = none := by
  induction tail with
  | nil => rfl
  | cons b tail ih =>
      have hb : b ≠ newline := fun e => h (by simp [e])
      simp only [afterNewline?, if_neg hb]
      exact ih fun m => h (by simp [m])

theorem cut_tail (room : Nat) (tail : List UInt8) (h : newline ∉ tail) :
    cut room tail = (tail.take room, tail.drop room) := by
  induction room generalizing tail with
  | zero => simp [cut]
  | succ room ih =>
      cases tail with
      | nil => simp [cut]
      | cons b tail =>
          have hb : b ≠ newline := fun e => h (by simp [e])
          simp only [cut, if_neg hb, ih tail fun m => h (by simp [m]), List.take_succ_cons,
            List.drop_succ_cons]

theorem cut_newline (room : Nat) (body rest : List UInt8) (h : newline ∉ body)
    (hroom : body.length < room) :
    cut room (body ++ newline :: rest) = (body ++ [newline], rest) := by
  induction body generalizing room with
  | nil =>
      obtain ⟨room, rfl⟩ : ∃ k, room = k + 1 := ⟨room - 1, by omega⟩
      simp [cut]
  | cons b body ih =>
      have hb : b ≠ newline := fun e => h (by simp [e])
      obtain ⟨room, rfl⟩ : ∃ k, room = k + 1 := ⟨room - 1, by omega⟩
      simp only [List.cons_append, cut, if_neg hb,
        ih room (fun m => h (by simp [m])) (by simpa using hroom)]

theorem cut_long (room : Nat) (body rest : List UInt8) (h : newline ∉ body)
    (hroom : room ≤ body.length) :
    cut room (body ++ rest) = (body.take room, body.drop room ++ rest) := by
  induction room generalizing body with
  | zero => simp [cut]
  | succ room ih =>
      cases body with
      | nil => simp at hroom
      | cons b body =>
          have hb : b ≠ newline := fun e => h (by simp [e])
          simp only [List.cons_append, cut, if_neg hb,
            ih body (fun m => h (by simp [m])) (by simpa using hroom), List.take_succ_cons,
            List.drop_succ_cons]

/-- The reader after the bytes `part` of a line that has not ended. -/
def after (limit : Nat) (part : List UInt8) : LineReader :=
  if part.length ≤ limit then ⟨limit, part, false⟩ else ⟨limit, [], true⟩

@[simp] theorem after_nil (limit : Nat) : after limit [] = fresh limit := by simp [after, fresh]

/-- A chunk without a newline goes on with the line. -/
theorem feed_after (limit : Nat) (part chunk : List UInt8) (h : newline ∉ chunk) :
    (after limit part).feed chunk = .pending (after limit (part ++ chunk)) := by
  have hlen : (part ++ chunk).length = part.length + chunk.length := List.length_append
  by_cases hp : part.length ≤ limit
  · have htake : newline ∉ chunk.take (limit + 1 - part.length) :=
      fun m => h (List.mem_of_mem_take m)
    have hdrop : newline ∉ chunk.drop (limit + 1 - part.length) :=
      fun m => h (List.mem_of_mem_drop m)
    simp only [after, if_pos hp, feed, cut_tail _ chunk h, if_neg (getLast?_ne_newline htake),
      Bool.false_eq_true, if_false, List.length_take]
    by_cases hc : chunk.length < limit + 1 - part.length
    · rw [if_pos (by omega), if_pos (by omega), List.take_of_length_le (by omega)]
    · rw [if_neg (by omega), if_neg (by omega), skip, afterNewline?_tail _ hdrop]
  · rw [after, if_neg hp, after, if_neg (by omega)]
    simp only [feed, if_true, skip, afterNewline?_tail chunk h]

/-- The newline completes the line with the frame of its segment; what follows is left. -/
theorem feed_after_newline (limit : Nat) (part body rest : List UInt8) (h : newline ∉ body) :
    (after limit part).feed (body ++ newline :: rest) =
      .complete (.ofSegment limit (part ++ body ++ [newline])) rest := by
  have hlen : (part ++ body).length = part.length + body.length := List.length_append
  rw [Frame.ofSegment, lineContent_newline]
  by_cases hp : part.length ≤ limit
  · rw [after, if_pos hp, feed, if_neg (by simp)]
    by_cases hb : body.length < limit + 1 - part.length
    · rw [if_pos (by omega)]
      simp [cut_newline _ body rest h hb]
    · have htake : newline ∉ body.take (limit + 1 - part.length) :=
        fun m => h (List.mem_of_mem_take m)
      have hdrop : newline ∉ body.drop (limit + 1 - part.length) :=
        fun m => h (List.mem_of_mem_drop m)
      simp only [cut_long _ body _ h (Nat.le_of_not_lt hb), if_neg (getLast?_ne_newline htake)]
      rw [if_neg (by rw [List.length_take]; omega), if_neg (by omega), skip,
        afterNewline?_newline _ rest hdrop]
  · rw [after, if_neg hp, if_neg (by omega)]
    simp only [feed, if_true, skip, afterNewline?_newline body rest h]

theorem of_feed_after_pending {limit : Nat} {part chunk : List UInt8} {r : LineReader}
    (h : (after limit part).feed chunk = .pending r) :
    newline ∉ chunk ∧ r = after limit (part ++ chunk) := by
  by_cases hc : newline ∈ chunk
  · obtain ⟨body, rest, rfl, hbody⟩ := List.eq_append_cons_of_mem hc
    rw [feed_after_newline limit part body rest hbody] at h
    cases h
  · rw [feed_after limit part chunk hc] at h
    cases h
    exact ⟨hc, rfl⟩

theorem of_feed_after_complete {limit : Nat} {part chunk rest : List UInt8} {f : Frame}
    (h : (after limit part).feed chunk = .complete f rest) :
    ∃ body, newline ∉ body ∧ chunk = body ++ newline :: rest ∧
      f = .ofSegment limit (part ++ body ++ [newline]) := by
  by_cases hc : newline ∈ chunk
  · obtain ⟨body, rest', rfl, hbody⟩ := List.eq_append_cons_of_mem hc
    rw [feed_after_newline limit part body rest' hbody] at h
    cases h
    exact ⟨body, hbody, rfl, rfl⟩
  · rw [feed_after limit part chunk hc] at h
    cases h

theorem finish_after (limit : Nat) (part : List UInt8) (h : newline ∉ part) :
    (after limit part).finish = if part = [] then none else some (.ofSegment limit part) := by
  rw [Frame.ofSegment, lineContent_tail h]
  by_cases hp : part.length ≤ limit
  · simp [after, if_pos hp, finish]
  · have hne : part ≠ [] := fun e => hp (by simp [e])
    simp [after, if_neg hp, finish, hne]

/-- Reading on in a line that ends within the chunks. -/
theorem read_after_newline (limit : Nat) (chunks : List (List UInt8)) (part body rest : List UInt8)
    (hs : chunks.flatten = body ++ newline :: rest) (h : newline ∉ body) :
    ∃ left, (after limit part).read chunks =
      some (.ofSegment limit (part ++ body ++ [newline]), left) ∧ left.flatten = rest := by
  induction chunks generalizing part body with
  | nil => simp at hs
  | cons chunk chunks ih =>
      rw [List.flatten_cons] at hs
      by_cases hc : newline ∈ chunk
      · obtain ⟨start, tail, rfl, hstart⟩ := List.eq_append_cons_of_mem hc
        have hsplit : start = body ∧ tail ++ chunks.flatten = rest := by
          have e : start ++ newline :: (tail ++ chunks.flatten) = body ++ newline :: rest := by
            simpa using hs
          have hseg := congrArg segments e
          rw [segments_newline _ _ hstart, segments_newline _ _ h] at hseg
          have hbody : start = body := by
            have := congrArg lineContent (List.cons.inj hseg).1
            simpa only [lineContent_newline] using this
          subst hbody
          exact ⟨rfl, (List.cons.inj (List.append_cancel_left e)).2⟩
        obtain ⟨rfl, rfl⟩ := hsplit
        refine ⟨tail :: chunks, ?_, by simp⟩
        rw [read, feed_after_newline limit part start tail hstart]
      · obtain ⟨more, rfl⟩ : ∃ more, body = chunk ++ more := by
          rcases List.append_eq_append_iff.mp hs with ⟨as, hbody, -⟩ | ⟨bs, hchunk, hrest⟩
          · exact ⟨as, hbody⟩
          · cases bs with
            | nil => exact ⟨[], by simpa using hchunk.symm⟩
            | cons b bs =>
                have hb : b = newline := (List.cons.inj hrest).1.symm
                exact absurd (by simp [hchunk, hb]) hc
        have hs' : chunks.flatten = more ++ newline :: rest := by
          rw [List.append_assoc] at hs
          exact List.append_cancel_left hs
        obtain ⟨left, hread, hleft⟩ :=
          ih (part ++ chunk) more hs' fun m => h (List.mem_append_right _ m)
        refine ⟨left, ?_, hleft⟩
        rw [read, feed_after limit part chunk hc]
        simpa using hread

/-- Reading on in a line that only the end of the stream completes. -/
theorem read_after_tail (limit : Nat) (chunks : List (List UInt8)) (part : List UInt8)
    (hp : newline ∉ part) (h : newline ∉ chunks.flatten) :
    (after limit part).read chunks =
      (if part ++ chunks.flatten = [] then none
        else some (.ofSegment limit (part ++ chunks.flatten))).map fun f => (f, []) := by
  induction chunks generalizing part with
  | nil => rw [read, finish_after limit part hp]; simp
  | cons chunk chunks ih =>
      have hc : newline ∉ chunk := fun m => h (by simp [m])
      have hcs : newline ∉ chunks.flatten := fun m => h (by simp_all)
      have hpc : newline ∉ part ++ chunk := by simp [hp, hc]
      rw [read, feed_after limit part chunk hc]
      simpa only [List.flatten_cons, List.append_assoc] using ih (part ++ chunk) hpc hcs

theorem read_eof (limit : Nat) {chunks : List (List UInt8)} (h : chunks.flatten = []) :
    (fresh limit).read chunks = none := by
  have hread := read_after_tail limit chunks [] (by simp) (by simp [h])
  simpa [h] using hread

/-- One call consumes the first segment and gives its frame. -/
theorem read_segment (limit : Nat) {chunks : List (List UInt8)} (h : chunks.flatten ≠ []) :
    ∃ segment left, (fresh limit).read chunks = some (.ofSegment limit segment, left) ∧
      chunks.flatten = segment ++ left.flatten ∧ segment ≠ [] ∧
      segments chunks.flatten = segment :: segments left.flatten := by
  by_cases hn : newline ∈ chunks.flatten
  · obtain ⟨body, rest, hs, hbody⟩ := List.eq_append_cons_of_mem hn
    obtain ⟨left, hread, rfl⟩ := read_after_newline limit chunks [] body rest hs hbody
    refine ⟨body ++ [newline], left, by simpa using hread, by simp [hs], by simp, ?_⟩
    rw [hs, segments_newline body _ hbody]
  · have hread := read_after_tail limit chunks [] (by simp) (by simpa using hn)
    refine ⟨chunks.flatten, [], by simpa [h] using hread, by simp, h, ?_⟩
    rw [segments_tail _ hn h]
    rfl

theorem read_eq_none_iff (limit : Nat) (chunks : List (List UInt8)) :
    (fresh limit).read chunks = none ↔ chunks.flatten = [] := by
  refine ⟨fun h => ?_, read_eof limit⟩
  apply Classical.byContradiction
  intro hne
  obtain ⟨segment, left, hread, -⟩ := read_segment limit hne
  simp [hread] at h

/-- What a call that gives a frame has consumed. -/
theorem of_read_eq_some {limit : Nat} {chunks left : List (List UInt8)} {f : Frame}
    (h : (fresh limit).read chunks = some (f, left)) :
    ∃ segment, f = .ofSegment limit segment ∧ chunks.flatten = segment ++ left.flatten ∧
      segment ≠ [] ∧ segments chunks.flatten = segment :: segments left.flatten := by
  have hne : chunks.flatten ≠ [] := fun e => by simp [read_eof limit e] at h
  obtain ⟨segment, left', hread, hs, hseg, hsegs⟩ := read_segment limit hne
  obtain ⟨rfl, rfl⟩ : f = Frame.ofSegment limit segment ∧ left = left' := by simpa [h] using hread
  exact ⟨segment, rfl, hs, hseg, hsegs⟩

/-- Calls until the end of the stream: their frames, and the chunks left then. -/
def readAll (limit : Nat) (chunks : List (List UInt8)) : List Frame × List (List UInt8) :=
  match _h : (fresh limit).read chunks with
  | none => ([], chunks)
  | some (f, left) =>
      let r := readAll limit left
      (f :: r.1, r.2)
termination_by chunks.flatten.length
decreasing_by
  obtain ⟨segment, -, hs, hseg, -⟩ := of_read_eq_some _h
  have hlen : 0 < segment.length := List.length_pos_iff.mpr hseg
  simp only [hs, List.length_append]
  omega

theorem readAll_frames (limit : Nat) (chunks : List (List UInt8)) :
    (readAll limit chunks).1 = (segments chunks.flatten).map (Frame.ofSegment limit) := by
  fun_induction readAll limit chunks with
  | case1 chunks h => simp [(read_eq_none_iff limit chunks).mp h, segments]
  | case2 chunks f left h r ih =>
      obtain ⟨segment, rfl, -, -, hsegs⟩ := of_read_eq_some h
      rw [hsegs, List.map_cons, ← ih]

theorem readAll_left (limit : Nat) (chunks : List (List UInt8)) :
    (readAll limit chunks).2.flatten = [] := by
  fun_induction readAll limit chunks with
  | case1 chunks h => exact (read_eq_none_iff limit chunks).mp h
  | case2 chunks f left h r ih => exact ih

/-- The sizes of the line buffer while one frame is read. A line that is skipped
has filled it. -/
def bufferSizes (r : LineReader) : List (List UInt8) → List Nat
  | [] => [r.held.length]
  | chunk :: chunks =>
      let size :=
        if r.skipping then r.limit + 1
        else (r.held ++ (cut (r.limit + 1 - r.held.length) chunk).1).length
      match r.feed chunk with
      | .pending r => size :: r.bufferSizes chunks
      | .complete _ _ => [size]

theorem bufferSizes_after_le (limit : Nat) (part : List UInt8) (chunks : List (List UInt8)) :
    ∀ n ∈ (after limit part).bufferSizes chunks, n ≤ limit + 1 := by
  induction chunks generalizing part with
  | nil =>
      intro n hn
      rw [bufferSizes, List.mem_singleton] at hn
      subst hn
      unfold after
      split <;> simp only [List.length_nil] <;> omega
  | cons chunk chunks ih =>
      have hsize : (if (after limit part).skipping then (after limit part).limit + 1
          else ((after limit part).held ++ (cut ((after limit part).limit + 1 -
            (after limit part).held.length) chunk).1).length) ≤ limit + 1 := by
        unfold after
        by_cases hp : part.length ≤ limit
        · have hcut := length_cut_le (limit + 1 - part.length) chunk
          simp only [if_pos hp, Bool.false_eq_true, if_false, List.length_append]
          omega
        · simp [if_neg hp]
      intro n hn
      rw [bufferSizes] at hn
      by_cases hc : newline ∈ chunk
      · obtain ⟨body, rest, rfl, hbody⟩ := List.eq_append_cons_of_mem hc
        rw [feed_after_newline limit part body rest hbody] at hn
        rw [List.mem_singleton.mp hn]
        exact hsize
      · rw [feed_after limit part chunk hc] at hn
        rcases List.mem_cons.mp hn with rfl | hn
        · exact hsize
        · exact ih (part ++ chunk) n hn

/-- Reading a stream to its end gives the frame of each of its segments, in
order, and leaves nothing of it; however much is still to come, no call holds
more than `limit + 1` bytes of a line. -/
theorem readAll_eq_segments (limit : Nat) (chunks : List (List UInt8)) :
    (readAll limit chunks).1 = (segments chunks.flatten).map (Frame.ofSegment limit) ∧
      (readAll limit chunks).2.flatten = [] ∧
      ∀ left, ∀ n ∈ (fresh limit).bufferSizes left, n ≤ limit + 1 := by
  refine ⟨readAll_frames limit chunks, readAll_left limit chunks, fun left => ?_⟩
  simpa using bufferSizes_after_le limit [] left

end LineReader
end MetricsProxy
