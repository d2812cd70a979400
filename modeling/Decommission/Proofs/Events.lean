import Decommission.Event

/-!
# Reading events

What can be read off a list of events: the updates that were sent, and the calls
of the cluster.  Both only grow as events are added.
-/

namespace Decommission

namespace Event

/-- The update, if the event is one. -/
def update? : Event → Option Update
  | update u => some u
  | _ => none

/-- The call of the cluster, if the event is one. -/
def call? : Event → Option Call
  | called c => some c
  | _ => none

/-- Whether the event tells nobody outside anything, and leaves the signal as it
is. -/
def isSilent : Event → Bool
  | update _ | signalFired => false
  | _ => true

/-- Whether the event starts an engine or calls the cluster. -/
def reachesOut : Event → Bool
  | launched _ | called _ => true
  | _ => false

/-- Whether the event is one that a supervision lets happen once it has begun. -/
def isOfSupervision : Event → Bool
  | update _ | note _ | signalFired | answered _ | received | released => true
  | _ => false

/-- Whether the event is the beginning or the end of a removal. -/
def isRemoval : Event → Bool
  | removalStarted .. | removalEnded .. => true
  | _ => false

/-- Whether the event is the beginning or the end of the removal at a position. -/
def isRemovalAt (i : Nat) : Event → Bool
  | removalStarted j _ | removalEnded j _ _ => j == i
  | _ => false

theorem reachesOut_of_isOfSupervision {e : Event} (h : e.isOfSupervision) :
    e.reachesOut = false := by
  cases e with
  | launched | called => cases h
  | _ => rfl

theorem isRemoval_of_isOfSupervision {e : Event} (h : e.isOfSupervision) :
    e.isRemoval = false := by
  cases e with
  | removalStarted | removalEnded => cases h
  | _ => rfl

theorem isRemoval_of_isRemovalAt {e : Event} {i : Nat} (h : e.isRemovalAt i) : e.isRemoval := by
  cases e with
  | removalStarted | removalEnded => rfl
  | _ => cases h

end Event

/-- The updates among events. -/
def updatesIn (es : List Event) : List Update := es.filterMap Event.update?

/-- The calls of the cluster among events. -/
def callsIn (es : List Event) : List Call := es.filterMap Event.call?

@[simp]
theorem updatesIn_nil : updatesIn [] = [] := rfl

@[simp]
theorem updatesIn_append (es fs : List Event) :
    updatesIn (es ++ fs) = updatesIn es ++ updatesIn fs := List.filterMap_append ..

@[simp]
theorem callsIn_nil : callsIn [] = [] := rfl

@[simp]
theorem callsIn_append (es fs : List Event) : callsIn (es ++ fs) = callsIn es ++ callsIn fs :=
  List.filterMap_append ..

/-- Notes are no updates. -/
@[simp]
theorem updatesIn_notes (ns : List Note) : updatesIn (ns.map .note) = [] := by
  induction ns with
  | nil => rfl
  | cons n ns ih => exact ih

/-- Notes are no calls. -/
@[simp]
theorem callsIn_notes (ns : List Note) : callsIn (ns.map .note) = [] := by
  induction ns with
  | nil => rfl
  | cons n ns ih => exact ih

/-- Silent events hold no update. -/
theorem updatesIn_of_silent {es : List Event} (h : ∀ e ∈ es, e.isSilent) : updatesIn es = [] := by
  rw [updatesIn, List.filterMap_eq_nil_iff]
  intro e he
  have hs := h e he
  cases e with
  | update u => cases hs
  | _ => rfl

/-- Events that reach nobody hold no call. -/
theorem callsIn_of_not_reachesOut {es : List Event} (h : ∀ e ∈ es, e.reachesOut = false) :
    callsIn es = [] := by
  rw [callsIn, List.filterMap_eq_nil_iff]
  intro e he
  have hr := h e he
  cases e with
  | called c => cases hr
  | _ => rfl

theorem mem_updatesIn {es : List Event} {u : Update} : u ∈ updatesIn es ↔ .update u ∈ es := by
  rw [updatesIn, List.mem_filterMap]
  constructor
  · rintro ⟨e, he, hu⟩
    cases e with
    | update u' => cases hu; exact he
    | _ => cases hu
  · exact fun h => ⟨_, h, rfl⟩

theorem mem_callsIn {es : List Event} {c : Call} : c ∈ callsIn es ↔ .called c ∈ es := by
  rw [callsIn, List.mem_filterMap]
  constructor
  · rintro ⟨e, he, hc⟩
    cases e with
    | called c' => cases hc; exact he
    | _ => cases hc
  · exact fun h => ⟨_, h, rfl⟩

/-- Silent events do not fire the signal. -/
theorem signalFired_notMem_of_silent {es : List Event} (h : ∀ e ∈ es, e.isSilent) :
    .signalFired ∉ es := by
  intro hm
  cases h _ hm

/-- Without removals there are none at any position. -/
theorem filter_isRemovalAt_eq_nil {es : List Event} (h : ∀ e ∈ es, e.isRemoval = false) (i : Nat) :
    es.filter (Event.isRemovalAt i) = [] := by
  rw [List.filter_eq_nil_iff]
  intro e he hi
  have hr := h e he
  rw [Event.isRemoval_of_isRemovalAt hi] at hr
  cases hr

end Decommission
