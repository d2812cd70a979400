import Decommission.Proofs.Retry.Attempts
import Decommission.Proofs.Teardown.Stopping
import Decommission.Proofs.Teardown.Timed

/-!
# Namespaces that are drained

Pods are running in every namespace on the list, and stop after a number of listings.  The
looks of the teardown are listings themselves.  So it depends on these two numbers alone, of
listings and of attempts, how often a namespace is looked at and whether it is deleted, and
all looks together decide when the teardown ends (`Teardown.Drained`).

The bag of chores says how each namespace stands (`Emptying`), whoever moves next.  The stage
of the coordinator says what time it is (`Teardown.Timed.Clocked`): all pauses so far have
passed, and nothing else took time.
-/

namespace Decommission

namespace RetryPolicy

variable (p : RetryPolicy) (n : Nat)

/-- Whether the policy allows a look at a namespace whose pods stopped after `n` listings. -/
def Outlasts : Prop := max n 1 < p.attemptsAtMost

/-- How often a namespace is looked at whose pods stop after `n` listings. -/
def looksAt : Nat := min (max n 1 + 1) p.attemptsAtMost

instance : Decidable (p.Outlasts n) := inferInstanceAs (Decidable (_ < _))

variable {p n}

/-- The look that finds the pods stopped is the last one. -/
theorem looksAt_of_stopped {failed : Nat} (hrunning : failed ≤ max n 1)
    (hallowed : failed < p.attemptsAtMost) (hstopped : max n 1 ≤ failed) :
    p.Outlasts n ∧ p.looksAt n = failed + 1 := by
  rw [Outlasts, looksAt]
  omega

/-- The look after which the policy allows no more is the last one. -/
theorem looksAt_of_not_lt_attempts {failed : Nat} (hrunning : ¬ max n 1 ≤ failed)
    (hallowed : failed < p.attemptsAtMost) (hlast : ¬ failed + 1 < p.attempts) :
    ¬ p.Outlasts n ∧ p.looksAt n = failed + 1 := by
  rw [Outlasts, looksAt]
  rw [attemptsAtMost] at hallowed ⊢
  omega

/-- Every other look is followed by one more. -/
theorem lt_looksAt {failed : Nat} (hrunning : ¬ max n 1 ≤ failed)
    (hmore : failed + 1 < p.attempts) : failed + 1 < p.looksAt n := by
  rw [looksAt, attemptsAtMost]
  omega

end RetryPolicy

/-! ## Chores in a store in which pods stop -/

/-- The namespace that is still to be looked at, if the chore is a look. -/
def Chore.looking? : Chore → Option String
  | look space _ => some space
  | work _ => none

/-- The namespaces still to be looked at. -/
def lookingAt (cs : List Chore) : List String := cs.filterMap Chore.looking?

theorem mem_lookingAt {cs : List Chore} {x : String} :
    x ∈ lookingAt cs ↔ ∃ failed, .look x failed ∈ cs := by
  rw [lookingAt, List.mem_filterMap]
  constructor
  · rintro ⟨c, hc, hx⟩
    cases c with
    | look y failed =>
        cases hx
        exact ⟨failed, hc⟩
    | work w => cases hx
  · rintro ⟨failed, hc⟩
    exact ⟨_, hc, rfl⟩

/-- A list of namespaces in a store, in each of which pods run that stop after a number of
listings.  Nothing is made to fail. -/
structure Store.Stops (s : Store) (listings : String → Nat) (spaces : List String) : Prop where
  built : s.Built
  faults : s.faults = []
  distinct : spaces.Nodup
  busy : ∀ x ∈ spaces, ¬ s.IsIdle x
  counted : ∀ x ∈ spaces, s.countdowns.get? x = some (listings x)

/-- A namespace that is not looked at any more.  If its pods stopped in time, it is gone, or a
worker is going to delete it.  Otherwise it stays. -/
structure Looked (p : RetryPolicy) (n : Nat) (s₀ : Store) (cs : List Chore) (s : Store)
    (x : String) : Prop where
  listings : s.calls.count (.listPods x) = s₀.calls.count (.listPods x) + p.looksAt n
  gone : p.Outlasts n → s.hasSpace x = false ∨
    ∃ w, .work w ∈ cs ∧ w.space = x ∧ .delete ∈ w.errands
  kept : ¬ p.Outlasts n → s.hasSpace x

/-- A namespace that is to be looked at again, after a number of looks. -/
structure ToLook (p : RetryPolicy) (n failed : Nat) (s₀ s : Store) (x : String) : Prop where
  running : failed ≤ max n 1
  allowed : failed < p.attemptsAtMost
  shows : s₀.Shows x n failed s

section Chores

variable {plan : Plan} {listings : String → Nat} {spaces : List String} {s₀ s s' : Store}
  {c : Chore} {cs cs' : List Chore} {fs : List TeardownFailure} {w : Worker} {x y : String}
  {n failed : Nat}

/-- How the namespaces stand when certain chores are left. -/
structure Emptying (plan : Plan) (listings : String → Nat) (spaces : List String) (s₀ : Store)
    (cs : List Chore) (fs : List TeardownFailure) (s : Store) : Prop where
  failures : fs = []
  faults : s.faults = []
  distinct : (lookingAt cs).Nodup
  listed : ∀ x ∈ lookingAt cs, x ∈ spaces
  looks : ∀ x failed, .look x failed ∈ cs → ToLook plan.policy (listings x) failed s₀ s x
  works : ∀ w, .work w ∈ cs → plan.policy.Outlasts (listings w.space) ∧ w.died = false ∧
    w.space ∉ lookingAt cs
  looked : ∀ x ∈ spaces, x ∉ lookingAt cs → Looked plan.policy (listings x) s₀ cs s x

theorem ToLook.beside (h : ToLook plan.policy n failed s₀ s y) (hb : s.Beside x s') (hne : x ≠ y) :
    ToLook plan.policy n failed s₀ s' y :=
  ⟨h.running, h.allowed, h.shows.beside hb hne⟩

theorem Looked.beside (h : Looked plan.policy n s₀ cs s y) (hb : s.Beside x s') (hne : x ≠ y)
    (hcs : ∀ w, w.space = y → .work w ∈ cs → .work w ∈ cs') :
    Looked plan.policy n s₀ cs' s' y where
  listings := (hb.listings y hne).trans h.listings
  gone hp := (h.gone hp).imp (hb.spaces y hne).trans fun ⟨w, hw, hspace, hdel⟩ =>
    ⟨w, hcs w hspace hw, hspace, hdel⟩
  kept hp := (hb.spaces y hne).trans (h.kept hp)

theorem Emptying.start (hs : s.Stops listings spaces) :
    Emptying plan listings spaces s (spaces.map (.look · 0)) [] s := by
  have hlooking : lookingAt (spaces.map (.look · 0)) = spaces := by
    rw [lookingAt, List.filterMap_map]
    exact List.filterMap_some
  refine ⟨rfl, hs.faults, ?_, fun x hx => ?_, fun x failed hc => ?_, fun w hw => ?_,
    fun x hx hnot => ?_⟩
  · rw [hlooking]
    exact hs.distinct
  · rwa [hlooking] at hx
  · obtain ⟨y, hy, heq⟩ := List.mem_map.mp hc
    cases heq
    refine ⟨Nat.zero_le _, ?_, .start (hs.built.hasSpace_of_not_isIdle (hs.busy x hy))
      (hs.counted x hy)⟩
    show 0 < max 1 _
    omega
  · obtain ⟨y, _, heq⟩ := List.mem_map.mp hw
    cases heq
  · rw [hlooking] at hnot
    exact absurd hx hnot

theorem Emptying.perm (h : Emptying plan listings spaces s₀ cs fs s) (hp : cs.Perm cs') :
    Emptying plan listings spaces s₀ cs' fs s := by
  have hlooking : (lookingAt cs).Perm (lookingAt cs') := hp.filterMap _
  refine ⟨h.failures, h.faults, hlooking.nodup_iff.mp h.distinct,
    fun x hx => h.listed x (hlooking.mem_iff.mpr hx), fun x failed hc => ?_, fun w hw => ?_,
    fun x hx hnot => ?_⟩
  · exact h.looks x failed (hp.mem_iff.mpr hc)
  · obtain ⟨houtlasts, hdied, hnot⟩ := h.works w (hp.mem_iff.mpr hw)
    exact ⟨houtlasts, hdied, mt hlooking.mem_iff.mpr hnot⟩
  · have hlooked := h.looked x hx (mt hlooking.mem_iff.mp hnot)
    exact ⟨hlooked.listings, fun ho => (hlooked.gone ho).imp id fun ⟨w, hw, hrest⟩ =>
      ⟨w, hp.mem_iff.mp hw, hrest⟩, hlooked.kept⟩

section Rest

variable {rest : Option Chore}

theorem mem_rest_iff {c' : Chore} : c' ∈ rest.toList ++ cs ↔ rest = some c' ∨ c' ∈ cs := by
  rw [List.mem_append, Option.mem_toList]

/-- A turn for a namespace leaves the chores of the others. -/
theorem mem_rest_iff_of_ne (c' : Chore) (hspace : ∀ c' ∈ rest, c'.space = c.space)
    (hne : c.space ≠ c'.space) : c' ∈ rest.toList ++ cs ↔ c' ∈ c :: cs := by
  rw [mem_rest_iff, List.mem_cons]
  refine or_congr ⟨fun hr => ?_, fun heq => ?_⟩ Iff.rfl
  · exact absurd (hspace c' hr).symm hne
  · exact absurd (congrArg Chore.space heq).symm hne

theorem mem_lookingAt_rest_iff_of_ne (hspace : ∀ c' ∈ rest, c'.space = c.space)
    (hne : c.space ≠ y) : y ∈ lookingAt (rest.toList ++ cs) ↔ y ∈ lookingAt (c :: cs) := by
  rw [mem_lookingAt, mem_lookingAt]
  exact exists_congr fun failed => mem_rest_iff_of_ne (.look y failed) hspace hne

/-- Only what is left of a chore may be a look at its namespace. -/
theorem eq_look_of_mem_rest (hfresh : x ∉ lookingAt cs)
    (hc : .look x failed ∈ rest.toList ++ cs) : rest = some (.look x failed) :=
  (mem_rest_iff.mp hc).resolve_right fun hm => hfresh (mem_lookingAt.mpr ⟨failed, hm⟩)

end Rest

/-- A turn for a namespace leaves the others as they stand.  What has to be shown is how that
namespace stands with what is left of the chore. -/
theorem Emptying.turn_of (rest : Option Chore)
    (h : Emptying plan listings spaces s₀ (c :: cs) fs s) (hb : s.Beside c.space s')
    (hfresh : c.space ∉ lookingAt cs) (hspace : ∀ c' ∈ rest, c'.space = c.space)
    (hlook : ∀ failed, rest = some (.look c.space failed) → c.space ∈ lookingAt (c :: cs) ∧
      ToLook plan.policy (listings c.space) failed s₀ s' c.space)
    (hwork : ∀ w, rest = some (.work w) →
      plan.policy.Outlasts (listings c.space) ∧ w.died = false)
    (hlooked : c.space ∈ spaces → (∀ failed, rest ≠ some (.look c.space failed)) →
      Looked plan.policy (listings c.space) s₀ (rest.toList ++ cs) s' c.space) :
    Emptying plan listings spaces s₀ (rest.toList ++ cs) fs s' := by
  -- No namespace comes to be looked at that was not before.
  have hbefore : ∀ y ∈ lookingAt (rest.toList ++ cs), y ∈ lookingAt (c :: cs) := by
    intro y hy
    by_cases hne : c.space = y
    · subst hne
      obtain ⟨failed, hc⟩ := mem_lookingAt.mp hy
      exact (hlook failed (eq_look_of_mem_rest hfresh hc)).1
    · exact (mem_lookingAt_rest_iff_of_ne hspace hne).mp hy
  refine ⟨h.failures, hb.faults.trans h.faults, ?_, fun y hy => h.listed y (hbefore y hy),
    fun y failed hc => ?_, fun w hw => ?_, fun y hy hnot => ?_⟩
  · have hcs : (lookingAt cs).Nodup :=
      h.distinct.sublist ((List.sublist_cons_self c cs).filterMap _)
    cases rest with
    | none => exact hcs
    | some c' =>
        cases c' with
        | work w => exact hcs
        | look y failed =>
            have hy : y = c.space := hspace _ rfl
            exact List.nodup_cons.mpr ⟨hy ▸ hfresh, hcs⟩
  · by_cases hne : c.space = y
    · subst hne
      exact (hlook failed (eq_look_of_mem_rest hfresh hc)).2
    · have hold := (mem_rest_iff_of_ne (.look y failed) hspace hne).mp hc
      exact (h.looks y failed hold).beside hb hne
  · rcases mem_rest_iff.mp hw with hr | hm
    · have hsame : w.space = c.space := hspace _ hr
      rw [hsame]
      obtain ⟨houtlasts, hdied⟩ := hwork w hr
      refine ⟨houtlasts, hdied, fun hx => ?_⟩
      obtain ⟨failed, hc⟩ := mem_lookingAt.mp hx
      cases hr.symm.trans (eq_look_of_mem_rest hfresh hc)
    · obtain ⟨houtlasts, hdied, hnot⟩ := h.works w (List.mem_cons_of_mem _ hm)
      exact ⟨houtlasts, hdied, fun hx => hnot (hbefore _ hx)⟩
  · by_cases hne : c.space = y
    · subst hne
      exact hlooked hy fun failed hr =>
        hnot (mem_lookingAt.mpr ⟨failed, mem_rest_iff.mpr (Or.inl hr)⟩)
    · refine (h.looked y hy (mt (mem_lookingAt_rest_iff_of_ne hspace hne).mpr hnot)).beside hb hne
        fun w hw hm => (mem_rest_iff_of_ne (.work w) hspace ?_).mpr hm
      rw [← hw] at hne
      exact hne

/-- A namespace is looked at once more. -/
theorem Emptying.look (h : Emptying plan listings spaces s₀ (.look x failed :: cs) fs s)
    (hs : s₀.Stops listings spaces) :
    Emptying plan listings spaces s₀ (((Chore.look x failed).turn plan s).rest.toList ++ cs)
      (fs ++ ((Chore.look x failed).turn plan s).failures)
      ((Chore.look x failed).turn plan s).cluster := by
  have hin : x ∈ lookingAt (.look x failed :: cs) :=
    mem_lookingAt.mpr ⟨failed, List.mem_cons_self ..⟩
  have hx : x ∈ spaces := h.listed x hin
  obtain ⟨hrunning, hallowed, hshows⟩ := h.looks x failed (List.mem_cons_self ..)
  have hfresh : x ∉ lookingAt cs := (List.nodup_cons.mp h.distinct).1
  have hb := Store.beside_listPods h.faults x
  have hnext := hshows.list h.faults
  have hfree := hshows.isFree_iff h.faults (hs.busy x hx)
  by_cases hstopped : max (listings x) 1 ≤ failed
  · obtain ⟨houtlasts, hlooks⟩ := RetryPolicy.looksAt_of_stopped hrunning hallowed hstopped
    rw [Chore.turn_of_isFree (hfree.mpr hstopped), List.append_nil]
    refine h.turn_of _ hb hfresh (fun c hc => by cases hc; rfl) (fun _ hc => by cases hc)
      (fun w hw => by cases hw; exact ⟨houtlasts, rfl⟩) fun _ _ => ⟨?_, fun _ => Or.inr ?_, ?_⟩
    · exact hnext.listings.trans (congrArg _ hlooks.symm)
    · refine ⟨_, List.mem_cons_self .., rfl, ?_⟩
      exact List.mem_append_right _ (List.mem_singleton.mpr rfl)
    · exact fun hnot => absurd houtlasts hnot
  · by_cases hlt : failed + 1 < plan.policy.attempts
    · rw [Chore.turn_of_lt_attempts (mt hfree.mp hstopped) hlt, List.append_nil]
      refine h.turn_of _ hb hfresh (fun c hc => by cases hc; rfl) (fun failed' hc => ?_)
        (fun w hw => by cases hw) fun _ hnot => absurd rfl (hnot _)
      cases hc
      refine ⟨hin, Nat.lt_of_not_le hstopped, ?_, hnext⟩
      exact Nat.lt_of_lt_of_le hlt (Nat.le_max_right ..)
    · obtain ⟨hnot, hlooks⟩ := RetryPolicy.looksAt_of_not_lt_attempts hstopped hallowed hlt
      obtain ⟨pods, hpods⟩ := Store.exists_pods_of_listPods h.faults x
      have hpods : (Cluster.listPods x s).answer = .ok pods := hpods
      rw [Chore.turn_of_not_lt_attempts (mt hfree.mp hstopped) hlt, hpods, Teardown.givenUp,
        List.append_nil]
      refine h.turn_of none hb hfresh (fun c hc => by cases hc) (fun _ hc => by cases hc)
        (fun w hw => by cases hw) fun _ _ => ⟨?_, fun ho => absurd ho hnot, fun _ => hnext.present⟩
      exact hnext.listings.trans (congrArg _ hlooks.symm)

/-- A worker goes on. -/
theorem Emptying.work (h : Emptying plan listings spaces s₀ (.work w :: cs) fs s) :
    Emptying plan listings spaces s₀ (((Chore.work w).turn plan s).rest.toList ++ cs)
      (fs ++ ((Chore.work w).turn plan s).failures) ((Chore.work w).turn plan s).cluster := by
  obtain ⟨houtlasts, hdied, hfresh⟩ := h.works w (List.mem_cons_self ..)
  have hdone := Chore.wellDone_turn plan h.faults hdied
  rw [hdone.failures, List.append_nil]
  refine h.turn_of _ hdone.beside hfresh (fun c hc => ?_) (fun failed hr => ?_) (fun w' hr => ?_)
    fun hx _ => ?_
  · obtain ⟨w', rfl, hspace, _⟩ := hdone.rest c hc
    exact hspace
  · obtain ⟨w', hw', _⟩ := hdone.rest _ hr
    cases hw'
  · obtain ⟨w'', hw', _, hdied'⟩ := hdone.rest _ hr
    cases hw'
    exact ⟨houtlasts, hdied'⟩
  · have hlooked := h.looked w.space hx hfresh
    refine ⟨hdone.listings.trans hlooked.listings, fun _ => ?_, fun hnot => absurd houtlasts hnot⟩
    rcases hlooked.gone houtlasts with hgone | ⟨w', hw', hspace, hdel⟩
    · exact Or.inl (hdone.gone hgone)
    · rcases List.mem_cons.mp hw' with heq | hm
      · cases heq
        refine (hdone.owed hdel).imp id fun ⟨w', hr, hdel'⟩ => ?_
        obtain ⟨_, hw', hspace', _⟩ := hdone.rest _ hr
        cases hw'
        refine ⟨w', ?_, hspace', hdel'⟩
        rw [hr]
        exact List.mem_cons_self ..
      · exact Or.inr ⟨w', List.mem_append_right _ hm, hspace, hdel⟩

/-- What every turn preserves. -/
theorem Emptying.turn (h : Emptying plan listings spaces s₀ (c :: cs) fs s)
    (hs : s₀.Stops listings spaces) :
    Emptying plan listings spaces s₀ ((c.turn plan s).rest.toList ++ cs)
      (fs ++ (c.turn plan s).failures) (c.turn plan s).cluster := by
  cases c with
  | look x failed => exact h.look hs
  | work w => exact h.work

end Chores

/-! ## The time it takes -/

namespace Teardown

/-- The nanoseconds for which the coordinator pauses at a namespace. -/
def pausesAt (p : RetryPolicy) (listings : String → Nat) (x : String) : Nat :=
  p.waited (p.looksAt (listings x))

/-- The waits are whole milliseconds, and the clock counts as far as all of them. -/
structure Measured (p : RetryPolicy) (listings : String → Nat) (spaces : List String)
    (start : Nat) : Prop where
  whole : ∀ n, 0 < n → n < p.attempts → nanosPerMilli ∣ (p.delayAfter n).nanos
  within : start * nanosPerMilli + total (pausesAt p listings) spaces < clockRange

namespace Timed

section Clock

variable {κ : Type} (p : RetryPolicy) (listings : String → Nat) (start : Nat)

/-- The instant after all pauses at namespaces that were left behind, and those so far at the
next one. -/
def instantAt (behind : List String) (failed : Nat) : Nat :=
  start * nanosPerMilli + (total (pausesAt p listings) behind + p.waited (failed + 1))

/-- What time it is follows from the stage of the coordinator. -/
def Clocked (spaces : List String) (t : Timed κ) : Prop :=
  match t.teardown.stage with
  | .checking failed rest => (rest = [] → failed = 0) ∧ ∃ behind, behind ++ rest = spaces ∧
      t.now * nanosPerMilli = instantAt p listings start behind failed
  | .pausing due failed rest => rest ≠ [] ∧ t.now ≤ due ∧ ∃ behind, behind ++ rest = spaces ∧
      due * nanosPerMilli = instantAt p listings start behind failed
  | .joining _ | .ended _ =>
      t.now * nanosPerMilli = start * nanosPerMilli + total (pausesAt p listings) spaces

variable {p listings start} {spaces behind rest : List String} {x : String} {failed now : Nat}
  {t : Timed κ}

/-- The last look at a namespace is followed by no pause. -/
theorem instantAt_left (h : p.looksAt (listings x) = failed + 1) :
    instantAt p listings start behind failed = instantAt p listings start (behind ++ [x]) 0 := by
  have hx : pausesAt p listings x = p.waited (failed + 1) := congrArg p.waited h
  rw [instantAt, instantAt, total_append, total, total, hx]
  rfl

/-- A pause of whole milliseconds is over when it should be. -/
theorem instantAt_paused (hm : Measured p listings spaces start)
    (hspaces : behind ++ x :: rest = spaces) (hmore : failed + 1 < p.attempts)
    (hlooks : failed + 1 < p.looksAt (listings x))
    (hnow : now * nanosPerMilli = instantAt p listings start behind failed) :
    now ≤ tickAfter now (p.delayAfter (failed + 1)) ∧
      tickAfter now (p.delayAfter (failed + 1)) * nanosPerMilli =
        instantAt p listings start behind (failed + 1) := by
  obtain ⟨ms, hwait⟩ := hm.whole (failed + 1) (Nat.succ_pos failed) hmore
  have hnext : instantAt p listings start behind (failed + 1) =
      now * nanosPerMilli + (p.delayAfter (failed + 1)).nanos := by
    rw [hnow, instantAt, instantAt, RetryPolicy.waited_succ]
    omega
  have hrange : now * nanosPerMilli + (p.delayAfter (failed + 1)).nanos < clockRange := by
    have hwithin := hm.within
    have hmono : p.waited (failed + 1 + 1) ≤ pausesAt p listings x := p.waited_mono hlooks
    rw [← hspaces, total_append, total] at hwithin
    rw [← hnext, instantAt]
    omega
  rw [Nat.mul_comm] at hwait
  rw [tickAfter_of_millis hwait hrange, hnext, hwait, Nat.add_mul]
  exact ⟨Nat.le_add_right .., rfl⟩

end Clock

section Moves

variable {plan : Plan} {listings : String → Nat} {spaces rest : List String} {s₀ : Store}
  {start failed : Nat} {x : String} {t t' : Timed Store} {m : Move}

/-- How a teardown stands that has begun at a certain millisecond. -/
structure Drains (plan : Plan) (listings : String → Nat) (spaces : List String) (s₀ : Store)
    (start : Nat) (t : Timed Store) : Prop where
  planned : t.teardown.plan = plan
  orderly : t.teardown.Orderly
  emptying : Emptying plan listings spaces s₀ t.teardown.agenda t.teardown.failures
    t.teardown.cluster
  clocked : t.Clocked plan.policy listings start spaces

/-- Every move of a teardown is a turn of a chore. -/
theorem Drains.emptying_move? {u : Teardown Store} {es : List Event} {m : Teardown.Move}
    (h : Drains plan listings spaces s₀ start t) (hs : s₀.Stops listings spaces)
    (hm : t.teardown.move? m = some (es, u)) : u.plan = plan ∧ u.Orderly ∧
      Emptying plan listings spaces s₀ u.agenda u.failures u.cluster := by
  obtain ⟨hplan, horderly, hmoved⟩ := orderly_move? h.orderly hm
  refine ⟨hplan.trans h.planned, horderly, ?_⟩
  cases hmoved with
  | inPlace hagenda hfailures hcluster =>
      rw [hagenda, hfailures, hcluster]
      exact h.emptying
  | turn c cs hbefore hafter hfailures hcluster =>
      rw [h.planned] at hafter hfailures hcluster
      rw [hfailures, hcluster]
      exact ((h.emptying.perm hbefore).turn hs).perm hafter.symm

/-- A look at a namespace, and the pause that follows if another look does. -/
theorem Drains.clocked_check (h : Drains plan listings spaces s₀ start t)
    (hs : s₀.Stops listings spaces) (hm : Measured plan.policy listings spaces start)
    (hstage : t.teardown.stage = .checking failed (x :: rest)) :
    Clocked plan.policy listings start spaces
      ⟨(t.teardown.check t.now failed x rest).2, t.now⟩ := by
  have hpolicy : t.teardown.policy = plan.policy := congrArg Plan.policy h.planned
  have hclocked := h.clocked
  rw [Clocked, hstage] at hclocked
  obtain ⟨_, behind, hspaces, hnow⟩ := hclocked
  have hchore : .look x failed ∈ t.teardown.agenda := by
    rw [agenda, unlooked, hstage]
    exact List.mem_cons_self ..
  have hx : x ∈ spaces := hspaces ▸ List.mem_append_right _ (List.mem_cons_self ..)
  obtain ⟨hrunning, hallowed, hshows⟩ := h.emptying.looks x failed hchore
  have hfree : isFree (t.teardown.listing x).answer ↔ max (listings x) 1 ≤ failed :=
    hshows.isFree_iff h.emptying.faults (hs.busy x hx)
  -- The namespace is left behind without a pause.
  have hleft : ∀ u : Teardown Store, u.stage = .checking 0 rest →
      plan.policy.looksAt (listings x) = failed + 1 →
      Clocked plan.policy listings start spaces ⟨u, t.now⟩ := by
    intro u hu hlooks
    rw [Clocked, hu]
    refine ⟨fun _ => rfl, behind ++ [x], ?_, hnow.trans (instantAt_left hlooks)⟩
    rw [List.append_assoc]
    exact hspaces
  rw [check_snd]
  by_cases hstopped : max (listings x) 1 ≤ failed
  · rw [if_pos (hfree.mpr hstopped)]
    exact hleft _ rfl (RetryPolicy.looksAt_of_stopped hrunning hallowed hstopped).2
  · rw [if_neg (mt hfree.mp hstopped)]
    split
    · rename_i wait hnext
      obtain ⟨hmore, rfl⟩ := RetryPolicy.next?_eq_some_iff.mp hnext
      rw [hpolicy] at hmore ⊢
      obtain ⟨hle, hdue⟩ := instantAt_paused hm hspaces hmore
        (RetryPolicy.lt_looksAt hstopped hmore) hnow
      exact ⟨List.cons_ne_nil x rest, hle, behind, hspaces, hdue⟩
    · rename_i hnone
      refine hleft _ rfl (RetryPolicy.looksAt_of_not_lt_attempts hstopped hallowed ?_).2
      intro hmore
      have hsome := RetryPolicy.next?_eq_some_iff.mpr ⟨hpolicy ▸ hmore, rfl⟩
      rw [hnone] at hsome
      cases hsome

theorem Drains.clocked_coordinate {u : Teardown Store} {es : List Event}
    (h : Drains plan listings spaces s₀ start t) (hs : s₀.Stops listings spaces)
    (hm : Measured plan.policy listings spaces start)
    (hstep : t.teardown.step? t.now = some (es, u)) :
    Clocked plan.policy listings start spaces ⟨u, t.now⟩ := by
  have hclocked := h.clocked
  rw [Clocked] at hclocked
  rw [step?] at hstep
  split at hstep
  · rename_i failed hstage
    cases hstep
    rw [hstage] at hclocked
    obtain ⟨hfailed, behind, hspaces, hnow⟩ := hclocked
    rw [List.append_nil] at hspaces
    show t.now * nanosPerMilli = _
    rw [hnow, hfailed rfl, hspaces]
    rfl
  · rename_i failed x rest hstage
    have hcheck := h.clocked_check hs hm hstage
    rw [Option.some.inj hstep] at hcheck
    exact hcheck
  · rename_i due failed rest hstage
    rw [hstage] at hclocked
    obtain ⟨hrest, hle, behind, hspaces, hdue⟩ := hclocked
    split at hstep
    · cases hstep
      refine ⟨fun hnil => absurd hnil hrest, behind, hspaces, ?_⟩
      rw [Nat.le_antisymm hle ‹due ≤ t.now›]
      exact hdue
    · cases hstep
  · rename_i next hstage
    rw [hstage] at hclocked
    split at hstep
    · obtain ⟨_, rfl⟩ := of_join_eq_some hstep
      exact hclocked
    · obtain rfl : u = { t.teardown with stage := .ended (verdict t.teardown.failures) } := by
        rw [← conclude_snd, Option.some.inj hstep]
      exact hclocked
  · cases hstep

/-- What every move preserves. -/
theorem Drains.move? (h : Drains plan listings spaces s₀ start t) (hs : s₀.Stops listings spaces)
    (hm : Measured plan.policy listings spaces start) (hmove : t.move? m = some t') :
    Drains plan listings spaces s₀ start t' := by
  cases m with
  | coordinate =>
      obtain ⟨⟨es, u⟩, hstep, rfl⟩ := Option.map_eq_some_iff.mp hmove
      obtain ⟨hplanned, horderly, hemptying⟩ := h.emptying_move? (m := .coordinate t.now) hs hstep
      exact ⟨hplanned, horderly, hemptying, h.clocked_coordinate hs hm hstep⟩
  | errand i =>
      obtain ⟨⟨es, u⟩, hstep, rfl⟩ := Option.map_eq_some_iff.mp hmove
      obtain ⟨hplanned, horderly, hemptying⟩ := h.emptying_move? (m := .errand i) hs hstep
      obtain ⟨w, turn, _, _, _, rfl⟩ := workerStep?_eq_some_iff.mp hstep
      exact ⟨hplanned, horderly, hemptying, h.clocked⟩
  | wait =>
      obtain ⟨due, halarm, hmove⟩ := Option.bind_eq_some_iff.mp hmove
      split at hmove
      · cases hmove
        refine ⟨h.planned, h.orderly, h.emptying, ?_⟩
        have hclocked := h.clocked
        rw [alarm?] at halarm
        rw [Clocked] at hclocked ⊢
        cases hstage : t.teardown.stage with
        | pausing due' failed rest =>
            rw [hstage] at halarm hclocked
            cases halarm
            exact ⟨hclocked.1, Nat.le_refl due, hclocked.2.2⟩
        | _ =>
            rw [hstage] at halarm
            cases halarm
      · cases hmove

theorem Drains.play (h : Drains plan listings spaces s₀ start t) (hs : s₀.Stops listings spaces)
    (hm : Measured plan.policy listings spaces start) (ms : List Move) :
    Drains plan listings spaces s₀ start (play Timed.move? t ms) :=
  play_induction (fun _ _ _ ht hmove => ht.move? hs hm hmove) h ms

theorem drains_start (policy : RetryPolicy) (systemSpace : String) (targets : List Target)
    (hs : s₀.Stops listings spaces) (start : Nat) :
    Drains ⟨policy, systemSpace, targets⟩ listings spaces s₀ start
      ⟨.start policy systemSpace targets spaces s₀, start⟩ := by
  have hagenda := agenda_start policy systemSpace targets spaces s₀
  refine ⟨rfl, orderly_start .., hagenda.symm ▸ .start hs, fun _ => rfl, [], rfl, ?_⟩
  exact (Nat.add_zero _).symm

end Moves

end Timed

/-! ## In the end -/

/-- What has come of namespaces whose pods stop after a number of listings. -/
structure Drained (policy : RetryPolicy) (listings : String → Nat) (spaces : List String)
    (s₀ : Store) (start : Nat) (t : Timed Store) : Prop where
  result : t.teardown.result? = some (.ok ())
  /-- A namespace is listed once more than its pods need, as far as the attempts go. -/
  listed : ∀ x ∈ spaces, t.teardown.cluster.calls.count (.listPods x) =
    s₀.calls.count (.listPods x) + policy.looksAt (listings x)
  /-- If the attempts go that far it is gone, and otherwise it stays. -/
  gone : ∀ x ∈ spaces, t.teardown.cluster.hasSpace x = false ↔ policy.Outlasts (listings x)
  /-- The pauses between the listings are all that takes time. -/
  ended : t.now * nanosPerMilli =
    start * nanosPerMilli + total (pausesAt policy listings) spaces

variable {listings : String → Nat} {spaces : List String} {s₀ : Store} {start : Nat}

theorem Timed.Drains.drained {plan : Plan} {t : Timed Store}
    (h : t.Drains plan listings spaces s₀ start) (hr : t.teardown.result?.isSome) :
    Drained plan.policy listings spaces s₀ start t := by
  obtain ⟨r, hr⟩ := Option.isSome_iff_exists.mp hr
  have hverdict : r = verdict [] := h.emptying.failures ▸ h.orderly.verdict r hr
  have hagenda : t.teardown.agenda = [] := agenda_eq_nil_of_result? hr
  have hlooked : ∀ x ∈ spaces,
      Looked plan.policy (listings x) s₀ [] t.teardown.cluster x := fun x hx =>
    hagenda ▸ h.emptying.looked x hx (hagenda ▸ List.not_mem_nil)
  refine ⟨hr.trans (congrArg some hverdict), fun x hx => (hlooked x hx).listings,
    fun x hx => ⟨fun hgone => ?_, fun ho => ?_⟩, ?_⟩
  · refine Decidable.of_not_not fun hnot => ?_
    rw [(hlooked x hx).kept hnot] at hgone
    cases hgone
  · exact ((hlooked x hx).gone ho).resolve_right fun ⟨w, hw, _⟩ => List.not_mem_nil hw
  · have hclocked := h.clocked
    rw [result?] at hr
    rw [Timed.Clocked] at hclocked
    cases hstage : t.teardown.stage with
    | ended r' =>
        rw [hstage] at hclocked
        exact hclocked
    | _ =>
        rw [hstage] at hr
        cases hr

/-- A teardown of namespaces whose pods stop after a number of listings succeeds.  How often
it lists them, which of them it deletes and when it ends follows from the listings and the
policy, at a site where nothing else goes on and in whatever order the workers move. -/
theorem drained_conduct (policy : RetryPolicy) (systemSpace : String) (targets : List Target)
    (site : Site) (hsite : site.Still) (hs : s₀.Stops listings spaces)
    (hm : Measured policy listings spaces site.now) :
    let t := Teardown.start policy systemSpace targets spaces s₀
    Drained policy listings spaces s₀ site.now (.of (t.conduct site)) ∧
      ∀ ms, (play Timed.move? ⟨t, site.now⟩ ms).teardown.result?.isSome →
        Drained policy listings spaces s₀ site.now (play Timed.move? ⟨t, site.now⟩ ms) := by
  intro t
  have hplay := (Timed.drains_start policy systemSpace targets hs site.now).play hs hm
  obtain ⟨ms, hms, hr⟩ := Timed.exists_play_conduct policy systemSpace targets spaces s₀ hsite
  exact ⟨(hms ▸ hplay ms).drained hr, fun ms hr => (hplay ms).drained hr⟩

/-- Three attempts, a tenth of a second apart. -/
def threeTimes : RetryPolicy where
  attempts := 3
  attempts_lt := by decide
  delay := .ofMillis 100
  backoff := .fixed

/-- Listings after which pods stop, for three namespaces. -/
def needed (space : String) : Nat := if space = "a" then 0 else if space = "b" then 2 else 5

/-- A store with a running pod in each of three namespaces. -/
def threeBusy : Store :=
  ["a", "b", "c"].foldl
    (fun s x => (s.addPod x ⟨"worker", .running⟩).stopPodsAfter x (needed x)) {}

/-- The pods of the third namespace take too long. -/
theorem drained_threeBusy :
    let t := Teardown.start threeTimes "system" [] ["a", "b", "c"] threeBusy
    let c := t.conduct { engines := [] }
    c.director.result? = some (.ok ()) ∧ c.site.now = 500 ∧
      ["a", "b", "c"].map c.director.cluster.hasSpace = [false, false, true] := by
  intro t c
  have hsite : Site.Still { engines := [] } := ⟨rfl, rfl⟩
  have hs : threeBusy.Stops needed ["a", "b", "c"] := by
    refine ⟨.stopPodsAfter _ _ (.addPod _ _ (.stopPodsAfter _ _ (.addPod _ _
      (.stopPodsAfter _ _ (.addPod _ _ .empty))))), rfl, by decide, ?_, by decide⟩
    show ∀ x ∈ ["a", "b", "c"], ¬ countRunning ((threeBusy.pods.get? x).getD []) = 0
    decide
  have hm : Measured threeTimes needed ["a", "b", "c"] 0 := by
    refine ⟨fun n _ _ => ?_, by decide⟩
    have hwait : threeTimes.delayAfter n = threeTimes.delayAfter 1 := rfl
    rw [hwait]
    decide
  have h : Drained threeTimes needed ["a", "b", "c"] threeBusy 0 (.of c) :=
    (drained_conduct threeTimes "system" [] { engines := [] } hsite hs hm).1
  have htotal : total (pausesAt threeTimes needed) ["a", "b", "c"] = 500 * nanosPerMilli := by
    decide
  have houtlasts : ∀ x ∈ ["a", "b", "c"], threeTimes.Outlasts (needed x) ↔ x ≠ "c" := by decide
  have hgone : ∀ x ∈ ["a", "b", "c"], c.director.cluster.hasSpace x = decide (x = "c") := by
    intro x hx
    have hiff : c.director.cluster.hasSpace x = false ↔ x ≠ "c" :=
      (h.gone x hx).trans (houtlasts x hx)
    rw [Bool.eq_iff_iff, decide_eq_true_iff, ← Bool.not_eq_false, hiff, not_not]
  refine ⟨h.result, ?_, ?_⟩
  · have hended := h.ended
    rw [htotal, Nat.zero_mul, Nat.zero_add] at hended
    exact Nat.eq_of_mul_eq_mul_right (by decide) hended
  · rw [List.map_congr_left hgone]
    decide

end Teardown

end Decommission
