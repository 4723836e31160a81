import LoopCapture.Insertions
import Mathlib.Data.Finset.Sort
import Mathlib.Data.List.Basic

/-!
# What insertions amount to

The text with insertions depends on the requests alone: before each character stand the texts
requested for its offset, by priority, and by the order of the requests where priorities are equal.
Whether a request extended an earlier insertion and when it was committed does not matter, since an
insertion is extended only by the latest request for its offset and priority.
-/

set_option autoImplicit false

namespace LoopCapture.Insertions

variable {offset : Nat} {source : List Char}

/-- A request and the offset it is made for. -/
structure Placement where
  offset : Nat
  request : Request

def placeAll (source : List Char) (placements : List Placement) : Insertions :=
  placements.foldl (fun insertions made => insertions.place made.offset made.request)
    (ofSource source)

/-- A piece of a text with insertions. -/
inductive Piece where
  | inserted (text : String)
  | kept (char : Char)
  deriving DecidableEq

namespace Piece

def chars : Piece → List Char
  | .inserted text => text.toList
  | .kept char => [char]

def inserted? : Piece → Option String
  | .inserted text => some text
  | .kept _ => none

def kept? : Piece → Option Char
  | .inserted _ => none
  | .kept char => some char

end Piece

/-- The texts requested for an offset, lower priorities first, and equal ones in the order of the
requests. -/
def textsAt (placements : List Placement) (offset : Nat) : List String :=
  ((placements.filter (·.offset = offset)).mergeSort fun first second =>
    first.request.priority ≤ second.request.priority).map (·.request.text)

/-- A text whose first character is at an offset, with the requested texts before each of its
characters and behind the last one. -/
def weave (placements : List Placement) : Nat → List Char → List Piece
  | offset, [] => (textsAt placements offset).map .inserted
  | offset, char :: rest =>
    (textsAt placements offset).map .inserted ++ .kept char :: weave placements (offset + 1) rest

/-! ## Sorting by keys -/

section Sorting

variable {α β : Type}

theorem filter_mergeSort {le : α → α → Bool} (trans : ∀ a b c, le a b → le b c → le a c)
    (total : ∀ a b, le a b || le b a) {keep : α → Bool} {items : List α}
    (sorted : (items.filter keep).Pairwise fun a b => le a b) :
    (items.mergeSort le).filter keep = items.filter keep := by
  have among : (items.filter keep).Sublist (items.mergeSort le) :=
    List.sublist_mergeSort trans total sorted List.filter_sublist
  have kept := among.filter keep
  simp only [List.filter_filter, Bool.and_self] at kept
  exact (kept.eq_of_length ((List.mergeSort_perm items le).filter keep).length_eq.symm).symm

/-- In a sorted list the items with the least key come first. -/
theorem eq_filter_append {key : α → Int} {least : Int} {items : List α}
    (sorted : items.Pairwise fun a b => key a ≤ key b) (above : ∀ item ∈ items, least ≤ key item) :
    items = items.filter (key · = least) ++ items.filter (key · ≠ least) := by
  induction items with
  | nil => rfl
  | cons first rest restIH =>
      obtain ⟨before, sorted⟩ := List.pairwise_cons.mp sorted
      by_cases same : key first = least
      · have split := restIH sorted fun item member => above item (List.mem_cons_of_mem _ member)
        simpa [same] using split
      · have greater : least < key first :=
          lt_of_le_of_ne (above first List.mem_cons_self) (Ne.symm same)
        have others : ∀ item ∈ first :: rest, key item ≠ least := by
          intro item member
          rcases List.mem_cons.mp member with rfl | later
          · exact same
          · exact ne_of_gt (lt_of_lt_of_le greater (before item later))
        rw [List.filter_eq_nil_iff.mpr (by simpa using others),
          List.filter_eq_self.mpr (by simpa using others), List.nil_append]

theorem flatMap_classes {key : α → Int} (text : α → List Char) {items : List α} {keys : List Int}
    (sorted : items.Pairwise fun a b => key a ≤ key b) (ascending : keys.Pairwise (· < ·))
    (among : ∀ item ∈ items, key item ∈ keys) :
    items.flatMap text = keys.flatMap fun least => (items.filter (key · = least)).flatMap text := by
  induction keys generalizing items with
  | nil => simp [List.eq_nil_iff_forall_not_mem.mpr fun item member => nomatch among item member]
  | cons least keys keysIH =>
      obtain ⟨before, ascending⟩ := List.pairwise_cons.mp ascending
      have above : ∀ item ∈ items, least ≤ key item := by
        intro item member
        rcases List.mem_cons.mp (among item member) with same | later
        · exact same.ge
        · exact (before _ later).le
      have others : ∀ item ∈ items.filter (key · ≠ least), key item ∈ keys := by
        intro item member
        obtain ⟨member, different⟩ := List.mem_filter.mp member
        exact (List.mem_cons.mp (among item member)).resolve_left (by simpa using different)
      have rest := keysIH (sorted.filter (key · ≠ least)) ascending others
      conv_lhs => rw [eq_filter_append sorted above]
      rw [List.flatMap_append, rest, List.flatMap_cons]
      congr 1
      refine List.flatMap_congr fun other member => ?_
      have different : other ≠ least := (before other member).ne'
      rw [List.filter_filter]
      congr 2
      funext item
      by_cases same : key item = other <;> simp [same, different]

/-- Sorted lists with the same text for each key have the same text. -/
theorem flatMap_eq_of_classes {key : α → Int} {text : α → List Char} {key' : β → Int}
    {text' : β → List Char} {items : List α} {items' : List β}
    (sorted : items.Pairwise fun a b => key a ≤ key b)
    (sorted' : items'.Pairwise fun a b => key' a ≤ key' b)
    (same : ∀ least, (items.filter (key · = least)).flatMap text =
      (items'.filter (key' · = least)).flatMap text') :
    items.flatMap text = items'.flatMap text' := by
  let keys := (items.map key ++ items'.map key').toFinset.sort
  have ascending : keys.Pairwise (· < ·) := (Finset.sortedLT_sort _).pairwise
  rw [flatMap_classes text sorted ascending (by intro item member; simp [keys]; grind),
    flatMap_classes text' sorted' ascending (by intro item member; simp [keys]; grind)]
  simp only [same]

end Sorting

/-! ## Requests and insertions -/

/-- The text inserted at an offset with a priority. -/
def wording (edits : List Insertion) (offset : Nat) (priority : Int) : List Char :=
  (edits.filter fun edit => edit.priority = priority && edit.offset = offset).flatMap (·.text.toList)

/-- The text requested for an offset with a priority. -/
def requested (placements : List Placement) (offset : Nat) (priority : Int) : List Char :=
  (placements.filter fun made => made.request.priority = priority && made.offset = offset).flatMap
    (·.request.text.toList)

/-- Some insertions, in the order of their numbers, have the texts of some requests. -/
structure Worded (placements : List Placement) (edits : List Insertion) : Prop where
  ascending : edits.Pairwise fun first second => first.request < second.request
  wording_eq : ∀ offset priority, wording edits offset priority = requested placements offset priority
  offsets : ∀ edit ∈ edits, ∃ made ∈ placements, made.offset = edit.offset

/-- Insertions that come from some requests. -/
structure Told (source : List Char) (placements : List Placement) (insertions : Insertions) :
    Prop where
  source_eq : insertions.source = source
  numbered : insertions.edits.map (·.request) = List.range insertions.edits.length
  wording_eq : ∀ offset priority,
    wording insertions.edits offset priority = requested placements offset priority
  offsets : ∀ edit ∈ insertions.edits, ∃ made ∈ placements, made.offset = edit.offset

theorem wording_append (first second : List Insertion) (offset : Nat) (priority : Int) :
    wording (first ++ second) offset priority =
      wording first offset priority ++ wording second offset priority := by
  rw [wording, List.filter_append, List.flatMap_append]
  rfl

theorem extendLatest_eq_some {request : Request} {latest extended : List Insertion}
    (found : extendLatest offset request latest = some extended) :
    extended.map (·.request) = latest.map (·.request) ∧
      extended.map (·.offset) = latest.map (·.offset) ∧
      ∀ spot priority, wording extended.reverse spot priority =
        wording latest.reverse spot priority ++ requested [⟨offset, request⟩] spot priority := by
  induction latest generalizing extended with
  | nil => cases found
  | cons edit earlier earlierIH =>
      rw [extendLatest] at found
      split at found
      · rename_i fits
        simp only [Bool.and_eq_true, decide_eq_true_eq] at fits
        obtain ⟨rfl, isPriority⟩ := fits
        split at found
        · cases found
        · obtain rfl := Option.some.inj found
          refine ⟨rfl, rfl, fun spot priority => ?_⟩
          simp only [List.reverse_cons, wording_append, List.append_assoc]
          congr 1
          by_cases here : request.priority = priority && edit.offset = spot <;>
            simp [wording, requested, isPriority, here]
      · obtain ⟨rest, foundRest, rfl⟩ := Option.map_eq_some_iff.mp found
        obtain ⟨requests, offsets, wordings⟩ := earlierIH foundRest
        rename_i different
        refine ⟨by simp [requests], by simp [offsets], fun spot priority => ?_⟩
        simp only [List.reverse_cons, wording_append, wordings]
        by_cases here : edit.priority = priority && edit.offset = spot
        · have other : requested [⟨offset, request⟩] spot priority = [] := by
            simp only [Bool.and_eq_true, decide_eq_true_eq] at here different
            obtain ⟨rfl, rfl⟩ := here
            have apart : ¬ (request.priority = edit.priority ∧ offset = edit.offset) :=
              fun both => different ⟨both.2.symm, both.1.symm⟩
            simp [requested, apart]
          rw [other, List.append_nil, List.append_nil]
        · have none : wording [edit] spot priority = [] := by simp [wording, here]
          rw [none, List.append_nil, List.append_nil]

namespace Told

variable {source : List Char} {placements : List Placement} {insertions : Insertions}

theorem nil (source : List Char) : Told source [] (ofSource source) where
  source_eq := rfl
  numbered := rfl
  wording_eq _ _ := rfl
  offsets := nofun

theorem commit (told : Told source placements insertions) : Told source placements insertions.commit where
  source_eq := told.source_eq
  numbered := by simpa [Insertions.commit, Function.comp_def] using told.numbered
  wording_eq spot priority := by
    rw [← told.wording_eq, wording, wording, Insertions.commit, List.filter_map, List.flatMap_map]
    rfl
  offsets edit member := by
    obtain ⟨earlier, among, rfl⟩ := List.mem_map.mp member
    exact told.offsets earlier among

theorem requested_append (first second : List Placement) (offset : Nat) (priority : Int) :
    requested (first ++ second) offset priority =
      requested first offset priority ++ requested second offset priority := by
  rw [requested, List.filter_append, List.flatMap_append]
  rfl

/-- One more request, whatever it does to earlier insertions, adds its text. -/
theorem place (told : Told source placements insertions) (offset : Nat) (request : Request) :
    Told source (placements ++ [⟨offset, request⟩]) (insertions.place offset request) := by
  have settled {edits : List Insertion}
      (all : Told source (placements ++ [⟨offset, request⟩]) { insertions with edits := edits }) :
      Told source (placements ++ [⟨offset, request⟩])
        (if request.commit then Insertions.commit { insertions with edits := edits }
          else { insertions with edits := edits }) := by
    split
    · exact all.commit
    · exact all
  have earlier {edit : Insertion} (member : edit.offset ∈ insertions.edits.map (·.offset)) :
      ∃ made ∈ placements ++ [⟨offset, request⟩], made.offset = edit.offset := by
    obtain ⟨old, among, same⟩ := List.mem_map.mp member
    obtain ⟨made, madeMember, isOffset⟩ := told.offsets old among
    exact ⟨made, List.mem_append_left _ madeMember, isOffset.trans same⟩
  rw [Insertions.place]
  refine settled ?_
  split
  · rename_i latest found
    obtain ⟨-, found⟩ : request.extend = true ∧
        extendLatest offset request insertions.edits.reverse = some latest := by
      simpa using found
    obtain ⟨requests, offsets, wordings⟩ := extendLatest_eq_some found
    rw [List.map_reverse, ← List.reverse_eq_iff, ← List.map_reverse] at requests offsets
    refine ⟨told.source_eq, ?_, fun spot priority => ?_, fun edit member => ?_⟩
    · have lengths := congrArg List.length requests
      simp only [List.length_map] at lengths
      exact requests.trans (told.numbered.trans (by rw [lengths]))
    · have all := wordings spot priority
      rw [List.reverse_reverse, told.wording_eq] at all
      rw [all, requested_append]
    · exact earlier (offsets ▸ List.mem_map_of_mem member)
  · refine ⟨told.source_eq, ?_, fun spot priority => ?_, fun edit member => ?_⟩
    · simp [told.numbered, List.range_succ]
    · rw [wording_append, told.wording_eq, requested_append]
      simp only [wording, requested, List.filter_cons, List.filter_nil]
      split <;> rfl
    · rcases List.mem_append.mp member with old | new
      · exact earlier (List.mem_map_of_mem old)
      · obtain rfl := List.mem_singleton.mp new
        exact ⟨_, List.mem_append_right _ List.mem_cons_self, rfl⟩

end Told

theorem told_placeAll (source : List Char) (placements : List Placement) :
    Told source placements (placeAll source placements) := by
  induction placements using List.reverseRecOn with
  | nil => exact .nil source
  | append_singleton earlier last earlierIH =>
      have all := earlierIH.place last.offset last.request
      rwa [placeAll, List.foldl_append]

/-! ## The text with insertions -/

/-- Characters from an offset on, with a text before each of them and behind the last one. -/
def interleave (texts : Nat → List Char) : Nat → List Char → List Char
  | offset, [] => texts offset
  | offset, char :: rest => texts offset ++ char :: interleave texts (offset + 1) rest

theorem interleave_congr {texts texts' : Nat → List Char} {chars : List Char}
    (same : ∀ spot, offset ≤ spot → texts spot = texts' spot) :
    interleave texts offset chars = interleave texts' offset chars := by
  induction chars generalizing offset with
  | nil => exact same offset (Nat.le_refl _)
  | cons char rest restIH =>
      rw [interleave, interleave, same offset (Nat.le_refl _),
        restIH fun spot behind => same spot (Nat.le_of_succ_le behind)]

theorem interleave_prepend {texts texts' : Nat → List Char} {first : List Char}
    (here : texts offset = first ++ texts' offset)
    (same : ∀ spot, offset < spot → texts spot = texts' spot) (chars : List Char) :
    interleave texts offset chars = first ++ interleave texts' offset chars := by
  cases chars with
  | nil => exact here
  | cons char rest =>
      rw [interleave, interleave, here, interleave_congr fun spot behind => same spot behind,
        List.append_assoc]

theorem interleave_skip {texts : Nat → List Char} {start count : Nat} {chars : List Char}
    (few : count ≤ chars.length)
    (none : ∀ spot, start ≤ spot → spot < start + count → texts spot = []) :
    interleave texts start chars =
      chars.take count ++ interleave texts (start + count) (chars.drop count) := by
  induction count generalizing start chars with
  | zero => rfl
  | succ count countIH =>
      cases chars with
      | nil => exact absurd few (Nat.not_succ_le_zero _)
      | cons char rest =>
          have noneLater : ∀ spot, start + 1 ≤ spot → spot < start + 1 + count → texts spot = [] :=
            fun spot behind before => none spot (by omega) (by omega)
          have later := countIH (Nat.le_of_succ_le_succ few) noneLater
          rw [interleave, none start (Nat.le_refl _) (by omega), later, List.take_succ_cons,
            List.drop_succ_cons, Nat.add_assoc, Nat.add_comm 1 count]
          rfl

def insertedAt (edits : List Insertion) (offset : Nat) : List Char :=
  (edits.filter (·.offset = offset)).flatMap (·.text.toList)

theorem insertedAt_eq_nil {edits : List Insertion} (none : ∀ edit ∈ edits, edit.offset ≠ offset) :
    insertedAt edits offset = [] := by
  rw [insertedAt, List.filter_eq_nil_iff.mpr (by simpa using none), List.flatMap_nil]

theorem splice_eq_interleave {start stop : Nat} {edits : List Insertion}
    (sorted : edits.Pairwise fun first second => first.offset ≤ second.offset)
    (bounds : ∀ edit ∈ edits, start ≤ edit.offset ∧ edit.offset ≤ stop) (before : start ≤ stop)
    (within : stop ≤ source.length) :
    splice source stop start edits =
      interleave (insertedAt edits) start (slice source start stop) := by
  have length (first : Nat) : (slice source first stop).length = stop - first := by
    simp [slice, Nat.min_eq_left within]
  induction edits generalizing start with
  | nil =>
      have all : interleave (insertedAt []) start (slice source start stop) = _ :=
        interleave_skip (Nat.le_refl _) fun _ _ _ => rfl
      simp [all, splice, interleave, insertedAt]
  | cons edit rest restIH =>
      obtain ⟨least, sorted⟩ := List.pairwise_cons.mp sorted
      obtain ⟨after, inside⟩ := bounds edit List.mem_cons_self
      have later := restIH sorted
        (fun other member => ⟨least other member, (bounds other (List.mem_cons_of_mem _ member)).2⟩)
        inside
      have nothing (spot : Nat) (early : spot < edit.offset) :
          insertedAt (edit :: rest) spot = [] := by
        refine insertedAt_eq_nil fun other member same => ?_
        rcases List.mem_cons.mp member with rfl | among
        · omega
        · have := least other among
          omega
      have taken : (slice source start stop).take (edit.offset - start) =
          slice source start edit.offset := by
        simp only [slice, List.take_drop, List.take_take]
        congr 2
        omega
      have dropped : (slice source start stop).drop (edit.offset - start) =
          slice source edit.offset stop := by
        simp only [slice, List.drop_drop]
        congr 1
        omega
      have few : edit.offset - start ≤ (slice source start stop).length := by
        rw [length]
        omega
      rw [interleave_skip few fun spot _ early => nothing spot (by omega), taken, dropped,
        Nat.add_sub_cancel' after, splice, later, List.append_assoc]
      congr 1
      refine (interleave_prepend ?_ (fun spot behind => ?_) _).symm
      · simp [insertedAt]
      · simp [insertedAt, Nat.ne_of_lt behind]

theorem precedes_iff {first second : Insertion} : first.precedes second = true ↔
    first.offset < second.offset ∨ first.offset = second.offset ∧
      (first.priority < second.priority ∨
        first.priority = second.priority ∧ first.request ≤ second.request) := by
  simp [Insertion.precedes]

theorem precedes_trans (first second third : Insertion) (former : first.precedes second = true)
    (latter : second.precedes third = true) : first.precedes third = true := by
  rw [precedes_iff] at *
  omega

theorem precedes_total (first second : Insertion) :
    (first.precedes second || second.precedes first) = true := by
  rw [Bool.or_eq_true, precedes_iff, precedes_iff]
  omega

theorem pairwise_inOrder (edits : List Insertion) :
    (inOrder edits).Pairwise fun first second => first.precedes second = true :=
  List.pairwise_mergeSort precedes_trans precedes_total edits

theorem priority_trans (first second third : Placement)
    (former : decide (first.request.priority ≤ second.request.priority) = true)
    (latter : decide (second.request.priority ≤ third.request.priority) = true) :
    decide (first.request.priority ≤ third.request.priority) = true := by
  simp only [decide_eq_true_eq] at *
  omega

theorem priority_total (first second : Placement) :
    (decide (first.request.priority ≤ second.request.priority) ||
      decide (second.request.priority ≤ first.request.priority)) = true := by
  simp only [Bool.or_eq_true, decide_eq_true_eq]
  omega

namespace Worded

variable {placements : List Placement} {edits : List Insertion}

theorem insertedAt_inOrder (worded : Worded placements edits) (offset : Nat) :
    insertedAt (inOrder edits) offset = (textsAt placements offset).flatMap (·.toList) := by
  rw [textsAt, List.flatMap_map]
  apply @flatMap_eq_of_classes _ _ Insertion.priority _ (·.request.priority)
  · refine ((pairwise_inOrder _).filter _).imp_of_mem fun first second before => ?_
    simp only [List.mem_filter, decide_eq_true_eq] at first second
    rw [precedes_iff] at before
    omega
  · have sorted := List.pairwise_mergeSort priority_trans priority_total
      (placements.filter (·.offset = offset))
    exact sorted.imp fun before => of_decide_eq_true before
  · intro priority
    have stable : (inOrder edits).filter
          (fun edit => edit.priority = priority && edit.offset = offset) =
        edits.filter (fun edit => edit.priority = priority && edit.offset = offset) := by
      refine filter_mergeSort precedes_trans precedes_total ?_
      refine (worded.ascending.filter _).imp_of_mem fun first second before => ?_
      simp only [List.mem_filter, Bool.and_eq_true, decide_eq_true_eq] at first second
      rw [precedes_iff]
      omega
    have same := worded.wording_eq offset priority
    rw [List.filter_filter, stable, filter_mergeSort priority_trans priority_total, List.filter_filter]
    · exact same
    · refine List.Pairwise.imp_of_mem ?_ (List.pairwise_of_forall fun _ _ => trivial)
      intro first second firstMember secondMember _
      simp only [List.mem_filter, decide_eq_true_eq] at firstMember secondMember
      exact decide_eq_true (firstMember.2.trans secondMember.2.symm).le

end Worded

theorem chars_weave (placements : List Placement) (offset : Nat) (chars : List Char) :
    (weave placements offset chars).flatMap Piece.chars =
      interleave (fun spot => (textsAt placements spot).flatMap (·.toList)) offset chars := by
  induction chars generalizing offset with
  | nil => simp [weave, interleave, List.flatMap_map, Piece.chars]
  | cons char rest restIH => simp [weave, interleave, List.flatMap_map, Piece.chars, restIH]

/-- A range with insertions inside it depends on the requests alone. -/
theorem Worded.splice_eq {placements : List Placement} {edits : List Insertion}
    (worded : Worded placements edits) {start stop : Nat}
    (inside : ∀ made ∈ placements, start ≤ made.offset ∧ made.offset ≤ stop)
    (before : start ≤ stop) (within : stop ≤ source.length) :
    splice source stop start (inOrder edits) =
      (weave placements start (slice source start stop)).flatMap Piece.chars := by
  have bounds : ∀ edit ∈ inOrder edits, start ≤ edit.offset ∧ edit.offset ≤ stop := by
    intro edit member
    obtain ⟨made, among, same⟩ := worded.offsets edit ((List.mergeSort_perm _ _).mem_iff.mp member)
    exact same ▸ inside made among
  have sorted : (inOrder edits).Pairwise fun first second => first.offset ≤ second.offset := by
    refine (pairwise_inOrder _).imp fun before => ?_
    rw [precedes_iff] at before
    omega
  rw [splice_eq_interleave sorted bounds before within, chars_weave,
    interleave_congr fun spot _ => worded.insertedAt_inOrder spot]

theorem Told.worded {placements : List Placement} {insertions : Insertions}
    (told : Told source placements insertions) : Worded placements insertions.edits where
  ascending := by
    rw [← List.pairwise_map, told.numbered]
    exact List.pairwise_lt_range
  wording_eq := told.wording_eq
  offsets := told.offsets

/-- The text with insertions depends on the requests alone. -/
theorem Told.render_eq {placements : List Placement} {insertions : Insertions}
    (told : Told source placements insertions)
    (inside : ∀ made ∈ placements, made.offset ≤ source.length) :
    insertions.render = String.ofList ((weave placements 0 source).flatMap Piece.chars) := by
  have spliced := told.worded.splice_eq (fun made among => ⟨Nat.zero_le _, inside made among⟩)
    (Nat.zero_le _) (Nat.le_refl _)
  rw [render, told.source_eq, spliced, slice, List.take_length, List.drop_zero]

/-! ## What is inserted and what is kept -/

theorem kept_weave (placements : List Placement) (offset : Nat) (chars : List Char) :
    (weave placements offset chars).filterMap Piece.kept? = chars := by
  have none (texts : List String) : (texts.map Piece.inserted).filterMap Piece.kept? = [] := by
    simp [List.filterMap_eq_nil_iff, Piece.kept?]
  induction chars generalizing offset with
  | nil => exact none _
  | cons char rest restIH =>
      rw [weave, List.filterMap_append, none, List.nil_append, List.filterMap_cons, restIH]
      rfl

theorem inserted_weave (placements : List Placement) (offset : Nat) (chars : List Char) :
    ((weave placements offset chars).filterMap Piece.inserted?).Perm ((placements.filter fun made =>
      offset ≤ made.offset && made.offset ≤ offset + chars.length).map (·.request.text)) := by
  have all (texts : List String) : (texts.map Piece.inserted).filterMap Piece.inserted? = texts := by
    simp [List.filterMap_map, Function.comp_def, Piece.inserted?]
  have here (spot : Nat) : (textsAt placements spot).Perm
      ((placements.filter (·.offset = spot)).map (·.request.text)) :=
    (List.mergeSort_perm _ _).map _
  induction chars generalizing offset with
  | nil =>
      rw [weave, all]
      refine (here offset).trans (.of_eq ?_)
      congr 2
      funext made
      rw [Bool.eq_iff_iff]
      simp only [decide_eq_true_eq, Bool.and_eq_true, List.length_nil]
      omega
  | cons char rest restIH =>
      rw [weave, List.filterMap_append, all, List.filterMap_cons]
      refine ((here offset).append (restIH (offset + 1))).trans ?_
      rw [← List.map_append]
      refine .map _ (.trans (.of_eq ?_) (List.filter_append_perm (·.offset = offset) _))
      rw [List.filter_filter, List.filter_filter]
      congr 2
      all_goals
        funext made
        rw [Bool.eq_iff_iff]
        simp only [decide_eq_true_eq, Bool.and_eq_true, Bool.not_eq_true', decide_eq_false_iff_not,
          List.length_cons]
        omega

theorem inserted_weave_all {placements : List Placement} {chars : List Char}
    (inside : ∀ made ∈ placements, made.offset ≤ chars.length) :
    ((weave placements 0 chars).filterMap Piece.inserted?).Perm
      (placements.map (·.request.text)) := by
  have all := inserted_weave placements 0 chars
  rwa [List.filter_eq_self.mpr (by simpa using inside)] at all

/-! ## The order of insertions -/

/-- A request as an insertion of its own. -/
def Placement.edit (made : Placement) (number : Nat) : Insertion :=
  ⟨made.offset, made.request.text, made.request.priority, number, true⟩

/-- Requests as insertions, of which none extends another one. -/
def numbered (placements : List Placement) : List Insertion :=
  placements.zipIdx.map fun entry => entry.1.edit entry.2

end LoopCapture.Insertions
