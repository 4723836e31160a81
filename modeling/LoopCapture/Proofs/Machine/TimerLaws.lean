import LoopCapture.Machine.Clock
import Mathlib

/-!
# Timers run in the order of time

A timeline is a clock together with the timers that have been scheduled and those that have been
taken. Whatever is scheduled in between, timers are taken in the order in which they are due, each
of them once, and the clock never goes back. All that is asked of times is that they are ordered and
that a delay of at least zero does not lead into the past.
-/

set_option autoImplicit false

namespace LoopCapture

variable {τ α : Type}

/-! ## The first timer -/

namespace Clock

theorem first?_perm [LT τ] [DecidableLT τ] {pending rest : List (Timer τ α)} {timer : Timer τ α}
    (found : first? pending = some (timer, rest)) : (timer :: rest).Perm pending := by
  induction pending generalizing timer rest with
  | nil => cases found
  | cons head others othersIH =>
      unfold first? at found
      split at found
      · rename_i none
        obtain ⟨rfl, rfl⟩ := Prod.mk.inj (Option.some.inj found)
        cases others with
        | nil => exact .refl _
        | cons second more =>
            unfold first? at none
            split at none
            · cases none
            · split at none <;> cases none
      · rename_i best remaining bestFound
        split at found <;> obtain ⟨rfl, rfl⟩ := Prod.mk.inj (Option.some.inj found)
        · exact (List.Perm.swap _ _ _).trans ((othersIH bestFound).cons head)
        · exact .refl _

theorem first?_eq_none_iff [LT τ] [DecidableLT τ] {pending : List (Timer τ α)} :
    first? pending = none ↔ pending = [] := by
  cases pending with
  | nil => simp [first?]
  | cons head others =>
      unfold first?
      split
      · simp
      · split <;> simp

end Clock

/-- A timer is due before another one, or at the same time and has been requested before it. -/
def Timer.Before [LT τ] (first second : Timer τ α) : Prop :=
  first.due < second.due ∨ first.due = second.due ∧ first.id < second.id

section Ordered

variable [LinearOrder τ]
variable {second first : Timer τ α}

theorem Timer.precedes_iff :
    first.precedes second = true ↔ first.Before second := by
  simp only [precedes, Before, Bool.or_eq_true, Bool.and_eq_true, Bool.not_eq_true',
    decide_eq_true_eq, decide_eq_false_iff_not, not_lt]
  constructor
  · rintro (earlier | ⟨notLater, requested⟩)
    · exact .inl earlier
    · exact notLater.lt_or_eq.imp_right fun same => ⟨same, requested⟩
  · rintro (earlier | ⟨same, requested⟩)
    · exact .inl earlier
    · exact .inr ⟨same.le, requested⟩

theorem Timer.Before.trans {third : Timer τ α} (early : first.Before second)
    (late : second.Before third) : first.Before third := by
  rcases early with early | ⟨same, requested⟩
  · rcases late with late | ⟨same, -⟩
    · exact .inl (early.trans late)
    · exact .inl (same ▸ early)
  · rcases late with late | ⟨same', requested'⟩
    · exact .inl (same ▸ late)
    · exact .inr ⟨same.trans same', requested.trans requested'⟩

theorem Timer.Before.due_le (before : first.Before second) :
    first.due ≤ second.due := by
  rcases before with earlier | ⟨same, -⟩
  · exact earlier.le
  · exact same.le

theorem Timer.before_of_not_before (different : first.id ≠ second.id)
    (not : ¬ second.Before first) : first.Before second := by
  rcases lt_trichotomy first.due second.due with earlier | same | later
  · exact .inl earlier
  · refine .inr ⟨same, lt_of_le_of_ne (Nat.le_of_not_lt fun requested => ?_) different⟩
    exact not (.inr ⟨same.symm, requested⟩)
  · exact absurd (.inl later) not

/-- Among timers with different numbers the first one comes before all others. -/
theorem Clock.first?_before {pending rest : List (Timer τ α)} {timer : Timer τ α}
    (distinct : (pending.map Timer.id).Nodup) (found : first? pending = some (timer, rest)) :
    ∀ other ∈ rest, timer.Before other := by
  induction pending generalizing timer rest with
  | nil => cases found
  | cons head others othersIH =>
      obtain ⟨fresh, distinct⟩ := List.nodup_cons.mp distinct
      unfold first? at found
      split at found
      · obtain ⟨rfl, rfl⟩ := Prod.mk.inj (Option.some.inj found)
        exact fun _ member => absurd member List.not_mem_nil
      · rename_i best remaining bestFound
        have least := othersIH distinct bestFound
        have members := first?_perm bestFound
        split at found <;> obtain ⟨rfl, rfl⟩ := Prod.mk.inj (Option.some.inj found)
        · rename_i before
          exact List.forall_mem_cons.mpr ⟨Timer.precedes_iff.mp before, least⟩
        · rename_i notBefore
          have bestMember : best ∈ others := members.mem_iff.mp List.mem_cons_self
          have different : head.id ≠ best.id :=
            fun same => fresh (same ▸ List.mem_map_of_mem bestMember)
          have headFirst : head.Before best :=
            Timer.before_of_not_before different fun before => notBefore (Timer.precedes_iff.mpr before)
          intro other member
          rcases List.mem_cons.mp (members.mem_iff.mpr member) with rfl | remains
          · exact headFirst
          · exact headFirst.trans (least other remains)

theorem Clock.later_eq_max (first second : τ) : later first second = max first second := by
  unfold later
  split
  · rename_i before
    exact (max_eq_right before.le).symm
  · rename_i notBefore
    exact (max_eq_left (not_lt.mp notBefore)).symm

/-! ## Timelines -/

/-- What is asked of a clock: to schedule something, or to give the next timer. -/
inductive Clock.Event (τ α : Type) where
  | schedule (delay : τ) (action : α)
  | next

/-- A clock, and the timers scheduled and taken so far, in the order in which that happened. -/
structure Timeline (τ α : Type) where
  clock : Clock τ α
  scheduled : List (Timer τ α)
  taken : List (Timer τ α)

namespace Timeline

variable [Add τ] [OfNat τ 0]

def start (now : τ) : Timeline τ α := ⟨.start now, [], []⟩

def step (timeline : Timeline τ α) : Clock.Event τ α → Timeline τ α
  | .schedule delay action =>
    let clock := timeline.clock.schedule delay action
    let timer := ⟨timeline.clock.now + max delay 0, clock.count, action⟩
    { timeline with clock := clock, scheduled := timeline.scheduled ++ [timer] }
  | .next =>
    match timeline.clock.next? with
    | none => timeline
    | some (timer, clock) => { timeline with clock := clock, taken := timeline.taken ++ [timer] }

def run (now : τ) (events : List (Clock.Event τ α)) : Timeline τ α := events.foldl step (start now)

/-- Timers have been taken in the order of time, and the others are still to come. -/
structure InOrder (timeline : Timeline τ α) : Prop where
  /-- Every timer that has been scheduled is either pending or has been taken, once. -/
  kept : (timeline.taken ++ timeline.clock.pending).Perm timeline.scheduled
  /-- Timers are numbered from one on in the order of their requests. -/
  numbered : timeline.scheduled.map Timer.id = List.range' 1 timeline.clock.count
  ordered : timeline.taken.Pairwise Timer.Before
  upcoming : ∀ taken ∈ timeline.taken, ∀ timer ∈ timeline.clock.pending, taken.Before timer
  past : ∀ timer ∈ timeline.taken, timer.due ≤ timeline.clock.now
  /-- No pending timer is overdue. -/
  ahead : ∀ timer ∈ timeline.clock.pending, timeline.clock.now ≤ timer.due
  /-- The clock shows the time of the timer taken last. -/
  current : ∀ timer ∈ timeline.taken.getLast?, timeline.clock.now = timer.due

namespace InOrder

variable {timeline : Timeline τ α}

omit [Add τ] [OfNat τ 0] in
theorem start (now : τ) : InOrder (Timeline.start now : Timeline τ α) where
  kept := .refl _
  numbered := rfl
  ordered := .nil
  upcoming _ member := absurd member List.not_mem_nil
  past _ member := absurd member List.not_mem_nil
  ahead _ member := absurd member List.not_mem_nil
  current _ member := by cases member

variable (inOrder : timeline.InOrder)

include inOrder

omit [Add τ] [OfNat τ 0] in
theorem distinct : (timeline.clock.pending.map Timer.id).Nodup := by
  have all := (inOrder.kept.map Timer.id).nodup_iff.mpr (inOrder.numbered ▸ List.nodup_range')
  rw [List.map_append] at all
  exact all.of_append_right

omit [Add τ] [OfNat τ 0] in
theorem id_lt {timer : Timer τ α} (member : timer ∈ timeline.taken) :
    timer.id < timeline.clock.count + 1 := by
  have among := inOrder.kept.mem_iff.mp (List.mem_append_left _ member)
  have numbered := List.mem_map_of_mem (f := Timer.id) among
  rw [inOrder.numbered, List.mem_range'_1] at numbered
  omega

theorem schedule (grows : ∀ time delay : τ, 0 ≤ delay → time ≤ time + delay) (delay : τ)
    (action : α) : (timeline.step (.schedule delay action)).InOrder := by
  have due : timeline.clock.now ≤ timeline.clock.now + Clock.later delay 0 :=
    grows _ _ (Clock.later_eq_max delay 0 ▸ le_max_right delay 0)
  constructor
  · show (timeline.taken ++ (timeline.clock.pending ++ _)).Perm _
    rw [← List.append_assoc, Clock.later_eq_max]
    exact inOrder.kept.append_right _
  · show (timeline.scheduled ++ _).map Timer.id = List.range' 1 (timeline.clock.count + 1)
    rw [List.map_append, inOrder.numbered, List.range'_1_concat, Nat.add_comm]
    rfl
  · exact inOrder.ordered
  · intro taken member timer pending
    rcases List.mem_append.mp pending with old | new
    · exact inOrder.upcoming taken member timer old
    · obtain rfl := List.mem_singleton.mp new
      rcases ((inOrder.past taken member).trans due).lt_or_eq with earlier | same
      · exact .inl earlier
      · exact .inr ⟨same, inOrder.id_lt member⟩
  · exact inOrder.past
  · intro timer pending
    rcases List.mem_append.mp pending with old | new
    · exact inOrder.ahead timer old
    · obtain rfl := List.mem_singleton.mp new
      exact due
  · exact inOrder.current

theorem next : (timeline.step .next).InOrder := by
  cases found : Clock.first? timeline.clock.pending with
  | none => simpa [step, Clock.next?, found] using inOrder
  | some pair =>
      obtain ⟨timer, rest⟩ := pair
      have members := Clock.first?_perm found
      have first := Clock.first?_before inOrder.distinct found
      have isPending : timer ∈ timeline.clock.pending := members.mem_iff.mp List.mem_cons_self
      have remains {other : Timer τ α} (member : other ∈ rest) :
          other ∈ timeline.clock.pending :=
        members.mem_iff.mp (List.mem_cons_of_mem _ member)
      have now : Clock.later timeline.clock.now timer.due = timer.due := by
        rw [Clock.later_eq_max, max_eq_right (inOrder.ahead timer isPending)]
      simp only [step, Clock.next?, found, Option.map_some, now]
      constructor
      · show (timeline.taken ++ [timer] ++ rest).Perm _
        rw [List.append_assoc]
        exact (members.append_left _).trans inOrder.kept
      · exact inOrder.numbered
      · refine List.pairwise_append.mpr ⟨inOrder.ordered, List.pairwise_singleton _ _, ?_⟩
        intro taken member other isTimer
        obtain rfl := List.mem_singleton.mp isTimer
        exact inOrder.upcoming taken member other isPending
      · intro taken member other inRest
        rcases List.mem_append.mp member with old | new
        · exact inOrder.upcoming taken old other (remains inRest)
        · obtain rfl := List.mem_singleton.mp new
          exact first other inRest
      · intro taken member
        rcases List.mem_append.mp member with old | new
        · exact (inOrder.upcoming taken old timer isPending).due_le
        · exact (List.mem_singleton.mp new ▸ le_refl taken.due)
      · exact fun other inRest => (first other inRest).due_le
      · intro last isLast
        rw [List.getLast?_append_of_ne_nil _ (List.cons_ne_nil _ _)] at isLast
        exact congrArg Timer.due (Option.some.inj isLast)

theorem step (grows : ∀ time delay : τ, 0 ≤ delay → time ≤ time + delay) (event : Clock.Event τ α) :
    (timeline.step event).InOrder := by
  cases event with
  | schedule delay action => exact inOrder.schedule grows delay action
  | next => exact inOrder.next

end InOrder

theorem now_le_step (timeline : Timeline τ α) (event : Clock.Event τ α) :
    timeline.clock.now ≤ (timeline.step event).clock.now := by
  cases event with
  | schedule delay action => exact le_refl _
  | next =>
      cases found : Clock.first? timeline.clock.pending with
      | none => simp [step, Clock.next?, found]
      | some pair => simp [step, Clock.next?, found, Clock.later_eq_max]

/-- However scheduling and taking alternate, timers are taken in the order of time, each of them
once, the clock moves to the time of each and never back, and there is a next timer as long as one is
pending. -/
theorem inOrder_run (grows : ∀ time delay : τ, 0 ≤ delay → time ≤ time + delay) (now : τ)
    (events : List (Clock.Event τ α)) :
    (run now events).InOrder ∧
      (∀ event, (run now events).clock.now ≤ (run now (events ++ [event])).clock.now) ∧
      ((run now events).clock.next? = none ↔ (run now events).clock.pending = []) := by
  have all : (run now events).InOrder := by
    induction events using List.reverseRecOn with
    | nil => exact .start now
    | append_singleton earlier event earlierIH =>
        rw [run, List.foldl_append]
        exact earlierIH.step grows event
  refine ⟨all, fun event => ?_, ?_⟩
  · rw [run, run, List.foldl_append]
    exact now_le_step _ event
  · rw [Clock.next?, Option.map_eq_none_iff, Clock.first?_eq_none_iff]

end Timeline

end Ordered

/-- A callback that is put off again while another one is pending, with a delay below zero, equal
times and a timer that is never due. -/
theorem Timeline.inOrder_run_callbacks :
    (∀ time delay : WithTop Int, 0 ≤ delay → time ≤ time + delay) ∧
      (run (0 : WithTop Int) [.schedule 5 "a", .schedule ⊤ "b", .schedule (-3 : Int) "c", .next,
        .schedule 5 "d", .next, .schedule 0 "e", .next, .next, .next, .next]).InOrder ∧
      ((run (0 : WithTop Int) [.schedule 5 "a", .schedule ⊤ "b", .schedule (-3 : Int) "c", .next,
        .schedule 5 "d", .next, .schedule 0 "e", .next, .next, .next, .next]).taken.map
          Timer.action) = ["c", "a", "d", "e", "b"] := by
  have grows (time delay : WithTop Int) (nonneg : 0 ≤ delay) : time ≤ time + delay :=
    le_add_of_nonneg_right nonneg
  exact ⟨grows, (inOrder_run grows 0 _).1, by decide +kernel⟩

end LoopCapture
