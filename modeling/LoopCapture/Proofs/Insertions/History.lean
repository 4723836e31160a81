import LoopCapture.Proofs.Insertions.Weaving
import Mathlib

/-!
# What a history of requests shows

After any calls the text with insertions is made of the requests that have been accepted, and a
reading of a range is made of those among them that have been committed: the ones up to the last
call that commits. A request may extend an earlier insertion, but since a committed one is extended
only by text that is committed at once, each insertion is made of requests that are all committed or
all pending. How the requests are spread over insertions then does not show.
-/

set_option autoImplicit false

namespace LoopCapture.Insertions

variable {offset : Int} {insertions : Insertions}

/-- What can be asked of insertions. -/
inductive Call where
  | insert (offset : Int) (request : Request)
  | commit

/-- A request as it is when nothing else has been asked for along with it. -/
def Request.plain (request : Request) : Request :=
  { request with extend := false, commit := false }

namespace Call

/-- A call that is refused changes nothing. -/
def serve (insertions : Insertions) : Call → Insertions
  | .insert offset request =>
    match insertions.insert offset request with
    | .ok placed => placed
    | .error _ => insertions
  | .commit => insertions.commit

/-- What a call asks to insert into a text of the given length, if the offset is not outside. -/
def placement? (length : Nat) : Call → Option Placement
  | .insert offset request =>
    if 0 ≤ offset ∧ offset ≤ length then some ⟨offset.toNat, request.plain⟩ else none
  | .commit => none

/-- Whether a call commits all that has been requested so far. -/
def commits (length : Nat) : Call → Bool
  | .insert offset request => (decide (0 ≤ offset ∧ offset ≤ length)) && request.commit
  | .commit => true

/-- The same call for a separate insertion that stays pending. -/
def bare? : Call → Option Call
  | .insert offset request => some (.insert offset request.plain)
  | .commit => none

end Call

def serveFrom (insertions : Insertions) (calls : List Call) : Insertions :=
  calls.foldl Call.serve insertions

def serveAll (source : List Char) (calls : List Call) : Insertions :=
  serveFrom (ofSource source) calls

/-- The requests that calls have made of a text of the given length. -/
def accepted (length : Nat) (calls : List Call) : List Placement :=
  calls.filterMap (Call.placement? length)

/-- The requests that have been committed: those up to the last call that commits. -/
def committed (length : Nat) (calls : List Call) : List Placement :=
  accepted length (calls.rdropWhile fun call => !call.commits length)

/-- The requests for offsets strictly between two others. -/
def between (start stop : Nat) (placements : List Placement) : List Placement :=
  placements.filter fun made => start < made.offset && made.offset < stop

/-! ## Calls -/

theorem insert_inside (inside : 0 ≤ offset ∧ offset ≤ insertions.source.length)
    (request : Request) :
    insertions.insert offset request = .ok (insertions.place offset.toNat request) := by
  simp [Insertions.insert, inside]

theorem insert_outside (outside : ¬ (0 ≤ offset ∧ offset ≤ insertions.source.length))
    (request : Request) :
    insertions.insert offset request = .error (.outside offset insertions.source.length) := by
  simp [Insertions.insert, outside]

theorem serve_inside (inside : 0 ≤ offset ∧ offset ≤ insertions.source.length) (request : Request) :
    (Call.insert offset request).serve insertions = insertions.place offset.toNat request := by
  simp [Call.serve, insert_inside inside]

theorem serve_outside (outside : ¬ (0 ≤ offset ∧ offset ≤ insertions.source.length))
    (request : Request) :
    (Call.insert offset request).serve insertions = insertions := by
  simp [Call.serve, insert_outside outside]

theorem serveAll_append (source : List Char) (calls later : List Call) :
    serveAll source (calls ++ later) = serveFrom (serveAll source calls) later :=
  List.foldl_append

/-! ## Requests -/

theorem accepted_append (length : Nat) (calls later : List Call) :
    accepted length (calls ++ later) = accepted length calls ++ accepted length later :=
  List.filterMap_append

theorem accepted_concat (length : Nat) (calls : List Call) (call : Call) :
    accepted length (calls ++ [call]) = accepted length calls ++ (call.placement? length).toList := by
  rw [accepted_append]
  cases placed : call.placement? length <;> simp [accepted, placed]

theorem committed_concat (length : Nat) (calls : List Call) (call : Call) :
    committed length (calls ++ [call]) =
      if call.commits length then accepted length (calls ++ [call]) else committed length calls := by
  rw [committed, List.rdropWhile_concat]
  cases call.commits length <;> rfl

theorem accepted_bare (length : Nat) (calls : List Call) :
    accepted length (calls.filterMap Call.bare?) = accepted length calls := by
  rw [accepted, List.filterMap_filterMap, accepted]
  congr 1
  funext call
  cases call <;> rfl

theorem inside_of_mem_accepted {length : Nat} {calls : List Call} {made : Placement}
    (member : made ∈ accepted length calls) : made.offset ≤ length := by
  obtain ⟨call, -, placed⟩ := List.mem_filterMap.mp member
  cases call with
  | commit => cases placed
  | insert offset request =>
      obtain ⟨inside, rfl⟩ : (0 ≤ offset ∧ offset ≤ length) ∧ _ = made := by
        simpa [Call.placement?] using placed
      simp only [Int.toNat_le]
      exact inside.2

theorem Told.place_plain {source : List Char} {placements : List Placement}
    (told : Told source placements insertions) (offset : Nat) (request : Request) :
    Told source (placements ++ [⟨offset, request.plain⟩]) (insertions.place offset request) := by
  have placed := told.place offset request
  refine ⟨placed.source_eq, placed.numbered, fun spot priority => ?_, fun edit member => ?_⟩
  · rw [placed.wording_eq, requested_append, requested_append]
    simp only [requested, Request.plain, List.filter_cons]
    split <;> rfl
  · obtain ⟨made, among, same⟩ := placed.offsets edit member
    simp only [List.mem_append, List.mem_singleton] at among ⊢
    rcases among with old | rfl
    · exact ⟨made, .inl old, same⟩
    · exact ⟨_, .inr rfl, same⟩

/-! ## Committed insertions -/

def settled (insertions : Insertions) : List Insertion := insertions.edits.filter (·.committed)

theorem settled_commit (insertions : Insertions) :
    settled insertions.commit = insertions.commit.edits := by
  simp [settled, Insertions.commit, List.filter_eq_self]

theorem settled_extendLatest {offset : Nat} {request : Request} (pending : request.commit = false)
    {latest extended : List Insertion} (found : extendLatest offset request latest = some extended) :
    extended.filter (·.committed) = latest.filter (·.committed) := by
  induction latest generalizing extended with
  | nil => cases found
  | cons edit earlier earlierIH =>
      rw [extendLatest] at found
      split at found
      · split at found
        · cases found
        · rename_i open_
          obtain rfl := Option.some.inj found
          have notCommitted : edit.committed = false := by simpa [pending] using open_
          simp [notCommitted]
      · obtain ⟨rest, foundRest, rfl⟩ := Option.map_eq_some_iff.mp found
        simp only [List.filter_cons, earlierIH foundRest]

/-- A request that does not commit goes to pending insertions only. -/
theorem settled_place {request : Request} (pending : request.commit = false)
    (insertions : Insertions) (offset : Nat) :
    settled (insertions.place offset request) = settled insertions := by
  unfold settled place
  simp only [pending, Bool.false_eq_true, if_false]
  split
  · rename_i latest found
    obtain ⟨-, extended⟩ : request.extend = true ∧
        extendLatest offset request insertions.edits.reverse = some latest := by
      simpa using found
    rw [List.filter_reverse, settled_extendLatest pending extended, List.filter_reverse,
      List.reverse_reverse]
  · simp

theorem place_commits {request : Request} (commits : request.commit = true)
    (insertions : Insertions) (offset : Nat) :
    settled (insertions.place offset request) = (insertions.place offset request).edits := by
  unfold place
  simp only [commits, if_true]
  exact settled_commit _

/-- A choice by offset keeps all items at one offset or none. -/
theorem filter_at {α : Type} {offset : α → Nat} {belongs : α → Bool} (spot : Nat)
    (there : ∀ item, belongs item = true → offset item = spot) (keep : Nat → Bool) (items : List α) :
    (items.filter fun item => keep (offset item)).filter belongs =
      if keep spot then items.filter belongs else [] := by
  rw [List.filter_filter]
  split
  · rename_i kept
    refine List.filter_congr fun item _ => ?_
    cases here : belongs item with
    | false => rfl
    | true => rw [there item here, kept]; rfl
  · rename_i dropped
    refine List.filter_eq_nil_iff.mpr fun item _ both => ?_
    obtain ⟨here, kept⟩ := Bool.and_eq_true_iff.mp both
    exact dropped (there item here ▸ kept)

theorem Worded.between {placements : List Placement} {edits : List Insertion}
    (worded : Worded placements edits) (start stop : Nat) :
    Worded (between start stop placements)
      (edits.filter fun edit => start < edit.offset && edit.offset < stop) where
  ascending := worded.ascending.filter _
  wording_eq spot priority := by
    have same := worded.wording_eq spot priority
    let keep (offset : Nat) : Bool := start < offset && offset < stop
    rw [wording, requested, Insertions.between, filter_at spot (by simp) keep,
      filter_at spot (by simp) keep]
    split
    · exact same
    · rfl
  offsets edit member := by
    obtain ⟨member, inside⟩ := List.mem_filter.mp member
    obtain ⟨made, among, same⟩ := worded.offsets edit member
    exact ⟨made, List.mem_filter.mpr ⟨among, same ▸ inside⟩, same⟩

/-! ## Histories -/

/-- Insertions show the requests that have been accepted, and committed insertions those that have
been committed. -/
structure Shows (source : List Char) (calls : List Call) (insertions : Insertions) : Prop where
  all : Told source (accepted source.length calls) insertions
  view : Worded (committed source.length calls) (settled insertions)

namespace Shows

variable {source : List Char} {calls : List Call} {insertions : Insertions}

theorem nil (source : List Char) : Shows source [] (ofSource source) where
  all := .nil source
  view := (Told.nil source).worded

/-- After a call that commits, all that has been requested is committed. -/
theorem of_commits {call : Call} (commits : call.commits source.length = true)
    (all : Told source (accepted source.length (calls ++ [call])) insertions)
    (same : settled insertions = insertions.edits) : Shows source (calls ++ [call]) insertions where
  all := all
  view := by
    rw [committed_concat, if_pos commits, same]
    exact all.worded

/-- After another call, the same requests are committed as before. -/
theorem of_pending {call : Call} (pending : call.commits source.length = false)
    (all : Told source (accepted source.length (calls ++ [call])) insertions)
    (view : Worded (committed source.length calls) (settled insertions)) :
    Shows source (calls ++ [call]) insertions where
  all := all
  view := by
    rwa [committed_concat, if_neg (by simp [pending])]

theorem serve (shows_ : Shows source calls insertions) (call : Call) :
    Shows source (calls ++ [call]) (call.serve insertions) := by
  have sourced := shows_.all.source_eq
  have requests := accepted_concat source.length calls call
  cases call with
  | commit =>
      refine of_commits rfl ?_ (settled_commit _)
      rw [requests, Call.placement?, Option.toList_none, List.append_nil]
      exact shows_.all.commit
  | insert offset request =>
      by_cases inside : 0 ≤ offset ∧ offset ≤ source.length
      · have all : Told source (accepted source.length (calls ++ [.insert offset request]))
            (insertions.place offset.toNat request) := by
          rw [requests, Call.placement?, if_pos inside]
          exact shows_.all.place_plain offset.toNat request
        rw [serve_inside (sourced ▸ inside)]
        cases isCommit : request.commit with
        | true =>
            exact of_commits (by simp [Call.commits, inside, isCommit]) all (place_commits isCommit _ _)
        | false =>
            refine of_pending (by simp [Call.commits, isCommit]) all ?_
            rw [settled_place isCommit]
            exact shows_.view
      · rw [serve_outside (sourced ▸ inside)]
        refine of_pending (by simp [Call.commits, inside]) ?_ shows_.view
        rw [requests, Call.placement?, if_neg inside, Option.toList_none, List.append_nil]
        exact shows_.all

theorem render_eq (shows_ : Shows source calls insertions) :
    insertions.render =
      String.ofList ((weave (accepted source.length calls) 0 source).flatMap Piece.chars) :=
  shows_.all.render_eq fun _ => inside_of_mem_accepted

theorem textOf_eq (shows_ : Shows source calls insertions) {start stop : Nat}
    (before : start ≤ stop) (within : stop ≤ source.length) :
    insertions.textOf start stop =
      String.ofList ((weave (between start stop (committed source.length calls)) start
        (slice source start stop)).flatMap Piece.chars) := by
  have inside : ∀ made ∈ between start stop (committed source.length calls),
      start ≤ made.offset ∧ made.offset ≤ stop := by
    intro made member
    obtain ⟨-, bounds⟩ := List.mem_filter.mp member
    simp only [Bool.and_eq_true, decide_eq_true_eq] at bounds
    omega
  have chosen : (insertions.edits.filter fun edit =>
      edit.committed && start < edit.offset && edit.offset < stop) =
        (settled insertions).filter fun edit => start < edit.offset && edit.offset < stop := by
    rw [settled, List.filter_filter]
    refine List.filter_congr fun edit _ => ?_
    rw [Bool.and_assoc, Bool.and_comm]
  rw [textOf, shows_.all.source_eq]
  simp only [chosen]
  rw [(shows_.view.between start stop).splice_eq inside before within]

end Shows

theorem shows_serveAll (source : List Char) (calls : List Call) :
    Shows source calls (serveAll source calls) := by
  induction calls using List.reverseRecOn with
  | nil => exact .nil source
  | append_singleton earlier call earlierIH =>
      rw [serveAll_append]
      exact earlierIH.serve call

theorem get_serveAll (source : List Char) (calls : List Call) (start stop : Int) :
    (serveAll source calls).get start stop =
      if 0 ≤ start ∧ start ≤ stop ∧ stop ≤ source.length then
        .ok (String.ofList ((weave (between start.toNat stop.toNat (committed source.length calls))
          start.toNat (slice source start.toNat stop.toNat)).flatMap Piece.chars))
      else .error (.badRange start stop) := by
  have known := shows_serveAll source calls
  simp only [Insertions.get, known.all.source_eq, Bool.and_eq_true, decide_eq_true_eq, and_assoc]
  split
  · rename_i valid
    rw [known.textOf_eq (by omega) (by omega)]
  · rfl

/-- The text with insertions is the source with the accepted texts before each position, by priority
and then in the order of the requests, each of them once. Extending, committing at once and
committing later make no difference to it, and a request outside of the source is refused and
changes nothing. -/
theorem render_of_requests (source : List Char) (calls : List Call) :
    (serveAll source calls).render =
        String.ofList ((weave (accepted source.length calls) 0 source).flatMap Piece.chars) ∧
      (weave (accepted source.length calls) 0 source).filterMap Piece.kept? = source ∧
      ((weave (accepted source.length calls) 0 source).filterMap Piece.inserted?).Perm
        ((accepted source.length calls).map (·.request.text)) ∧
      (serveAll source (calls.filterMap Call.bare?)).render = (serveAll source calls).render ∧
      ∀ (offset : Int) (request : Request), ¬ (0 ≤ offset ∧ offset ≤ source.length) →
        (serveAll source calls).insert offset request =
            .error (.outside offset source.length) ∧
          serveAll source (calls ++ [.insert offset request]) = serveAll source calls := by
  have known := shows_serveAll source calls
  refine ⟨known.render_eq, kept_weave _ _ _, inserted_weave_all fun _ => inside_of_mem_accepted, ?_,
    fun offset request outside => ?_⟩
  · rw [known.render_eq, (shows_serveAll source _).render_eq, accepted_bare]
  · have sourced := known.all.source_eq
    have beyond : ¬ (0 ≤ offset ∧ offset ≤ (serveAll source calls).source.length) := by
      rwa [sourced]
    rw [insert_outside beyond, serveAll_append, sourced]
    exact ⟨rfl, serve_outside beyond request⟩

/-- Requests of two priorities at one offset, one of them extended, and one beyond the end. -/
theorem render_of_requests_extended :
    ¬ (0 ≤ (3 : Int) ∧ (3 : Int) ≤ ("ab".toList).length) ∧
      (serveAll "ab".toList [.insert 1 ⟨"x", 1, false, false⟩, .insert 1 ⟨"y", 0, false, true⟩,
        .insert 1 ⟨"z", 1, true, false⟩, .insert 3 ⟨"w", 0, false, false⟩]).render = "ayxzb" ∧
      (serveAll "ab".toList [.insert 1 ⟨"x", 1, false, false⟩, .insert 1 ⟨"y", 0, false, true⟩,
        .insert 1 ⟨"z", 1, true, false⟩]).insert 3 ⟨"w", 0, false, false⟩ = .error (.outside 3 2) := by
  have outside : ¬ (0 ≤ (3 : Int) ∧ (3 : Int) ≤ ("ab".toList).length) := by decide
  have all := render_of_requests "ab".toList [.insert 1 ⟨"x", 1, false, false⟩,
    .insert 1 ⟨"y", 0, false, true⟩, .insert 1 ⟨"z", 1, true, false⟩]
  exact ⟨outside, by cbv, (all.2.2.2.2 3 ⟨"w", 0, false, false⟩ outside).1⟩

theorem committed_append {length : Nat} {first second : List Call}
    (all : accepted length first = accepted length second)
    (settled : committed length first = committed length second) (later : List Call) :
    committed length (first ++ later) = committed length (second ++ later) := by
  induction later using List.reverseRecOn with
  | nil => simpa using settled
  | append_singleton earlier call earlierIH =>
      rw [← List.append_assoc, ← List.append_assoc, committed_concat, committed_concat, earlierIH]
      simp only [accepted_append, all]

/-! ## Committing at once -/

/-- No further calls show a difference. -/
def Indistinguishable (first second : Insertions) : Prop :=
  ∀ later : List Call, (serveFrom first later).render = (serveFrom second later).render ∧
    ∀ start stop : Int, (serveFrom first later).get start stop = (serveFrom second later).get start stop

/-- Two requests are refused alike, or accepted with no difference to be seen. -/
inductive SameAnswer : Except Refusal Insertions → Except Refusal Insertions → Prop where
  | refused (refusal : Refusal) : SameAnswer (.error refusal) (.error refusal)
  | accepted {first second : Insertions} :
      Indistinguishable first second → SameAnswer (.ok first) (.ok second)

/-- Histories with the same requests, of which the same are committed, are not told apart. -/
theorem indistinguishable_serveAll {source : List Char} {first second : List Call}
    (all : accepted source.length first = accepted source.length second)
    (settled : committed source.length first = committed source.length second) :
    Indistinguishable (serveAll source first) (serveAll source second) := by
  intro later
  rw [← serveAll_append, ← serveAll_append]
  refine ⟨?_, fun start stop => ?_⟩
  · rw [(shows_serveAll source _).render_eq, (shows_serveAll source _).render_eq, accepted_append,
      accepted_append, all]
  · rw [get_serveAll, get_serveAll, committed_append all settled later]

/-- A reading of a range is made of the source and of the requests inside it that have been
committed. A request that does not commit is not seen in any range, and one that commits is not told
apart from the same request followed by committing everything. -/
theorem get_of_committed (source : List Char) (calls : List Call) :
    (∀ start stop : Nat, start ≤ stop → stop ≤ source.length →
        (serveAll source calls).get start stop =
          .ok (String.ofList ((weave (between start stop (committed source.length calls)) start
            (slice source start stop)).flatMap Piece.chars))) ∧
      (∀ (offset : Int) (request : Request), request.commit = false → ∀ start stop : Int,
        (serveAll source (calls ++ [.insert offset request])).get start stop =
          (serveAll source calls).get start stop) ∧
      ∀ (offset : Int) (text : String) (priority : Int) (extend : Bool),
        SameAnswer ((serveAll source calls).insert offset ⟨text, priority, extend, true⟩)
          (((serveAll source calls).insert offset ⟨text, priority, extend, false⟩).map
            Insertions.commit) := by
  refine ⟨fun start stop before within => ?_, fun offset request pending start stop => ?_,
    fun offset text priority extend => ?_⟩
  · rw [get_serveAll, if_pos (by omega)]
    rfl
  · have same : committed source.length (calls ++ [.insert offset request]) =
        committed source.length calls := by
      simp [committed_concat, Call.commits, pending]
    rw [get_serveAll, get_serveAll, same]
  · have sourced := (shows_serveAll source calls).all.source_eq
    by_cases inside : 0 ≤ offset ∧ offset ≤ source.length
    · have here := sourced ▸ inside
      let atOnce : Call := .insert offset ⟨text, priority, extend, true⟩
      let first : Call := .insert offset ⟨text, priority, extend, false⟩
      have all : accepted source.length (calls ++ [atOnce]) =
          accepted source.length (calls ++ [first] ++ [.commit]) := by
        simp only [accepted_concat, Call.placement?, atOnce, first, inside]
        simp [Request.plain]
      have settled : committed source.length (calls ++ [atOnce]) =
          committed source.length (calls ++ [first] ++ [.commit]) := by
        rw [committed_concat, committed_concat _ (calls ++ [first]), all]
        simp [Call.commits, atOnce, inside]
      have same := indistinguishable_serveAll all settled
      rw [insert_inside here, insert_inside here]
      refine .accepted ?_
      rw [serveAll_append, serveAll_append, serveAll_append] at same
      have served (request : Request) := serve_inside here request
      simp only [serveFrom, List.foldl_cons, List.foldl_nil, atOnce, first, served] at same
      exact same
    · have outside : ¬ (0 ≤ offset ∧ offset ≤ (serveAll source calls).source.length) := by
        rwa [sourced]
      rw [insert_outside outside, insert_outside outside]
      exact .refused _

/-- Two committed requests and a pending one that extends the second, read from a range around
them. -/
theorem get_of_committed_pending :
    0 ≤ 3 ∧ 3 ≤ "abc".toList.length ∧
      (serveAll "abc".toList [.insert 1 ⟨"x", 1, false, false⟩, .insert 1 ⟨"y", 0, false, true⟩,
        .insert 1 ⟨"z", 1, true, false⟩]).get 0 3 = .ok "ayxbc" ∧
      (serveAll "abc".toList [.insert 1 ⟨"x", 1, false, false⟩, .insert 1 ⟨"y", 0, false, true⟩,
        .insert 1 ⟨"z", 1, true, false⟩]).get 0 3 =
        (serveAll "abc".toList [.insert 1 ⟨"x", 1, false, false⟩,
          .insert 1 ⟨"y", 0, false, true⟩]).get 0 3 := by
  have all := get_of_committed "abc".toList [.insert 1 ⟨"x", 1, false, false⟩,
    .insert 1 ⟨"y", 0, false, true⟩]
  have read := all.1 0 3 (by decide) (by decide)
  have kept := all.2.1 1 ⟨"z", 1, true, false⟩ rfl 0 3
  exact ⟨by decide, by decide, (kept.trans read).trans (by cbv), kept⟩

end LoopCapture.Insertions
