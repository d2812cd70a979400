import Decommission.Proofs.Play
import Decommission.Proofs.Stream
import Decommission.Proofs.Supervision.Lifecycle

/-!
# Supervising any engine

A watch puts a supervision next to an engine that does what it likes.  The engine
answers at any time, or never, and sends reports and closes its stream whenever
it pleases.  Time passes in between, and the supervision looks whenever it gets
around to it.

`Watch.lifecycle_of_result` says what the outside has been told by the time the
supervision has a result, whatever the engine did.
-/

namespace Decommission

/-- A supervision and what its engine shows. -/
structure Watch where
  supervision : Supervision
  now : Nat
  answer : Option (Except EngineError Unit) := none
  stream : Stream
  closed : Bool := false

/-- What can happen while an engine is supervised. -/
inductive Happening
  | pass (ms : Nat)
  | answer (a : Except EngineError Unit)
  /-- The engine sends a report.  If its stream is full this happens later. -/
  | send (r : Report)
  | close
  | look

/-- The report that is sent, if one is. -/
def Happening.report? : Happening → Option Report
  | send r => some r
  | _ => none

namespace Watch

/-- A supervision at its beginning, and an engine that has shown nothing. -/
def start (phase : Phase) (engine : Nat) (budget : Budget) (now capacity : Nat) : Watch where
  supervision := .start phase engine budget now
  now
  stream := .sized capacity

/-- What the supervision sees. -/
def glance (w : Watch) : Glance :=
  ⟨w.now, w.now * nanosPerMilli, w.answer, w.stream.head w.closed⟩

/-- What an event does to the stream. -/
def carryOut (w : Watch) : Event → Watch
  | .received => { w with stream := w.stream.receive }
  | .released => { w with stream := w.stream.hangUp }
  | _ => w

/-- What happens next, if it can. -/
def move? : Happening → Watch → Option (List Event × Watch)
  | .pass ms, w => some ([], { w with now := w.now + ms })
  | .answer a, w => if w.answer.isNone then some ([], { w with answer := some a }) else none
  | .send r, w => if w.closed then none else some ([], { w with stream := w.stream.send r })
  | .close, w => some ([], { w with closed := true })
  | .look, w =>
      (w.supervision.look w.glance).map fun (es, s) =>
        (es, es.foldl carryOut { w with supervision := s })

/-- What has happened, and the watch afterwards, once certain things have happened
to a watch at its beginning. -/
def after (phase : Phase) (engine : Nat) (budget : Budget) (now capacity : Nat)
    (hs : List Happening) : List Event × Watch :=
  play (recorded move?)
    ((start phase engine budget now capacity).supervision.opening,
      start phase engine budget now capacity) hs

variable {w w' : Watch} {es : List Event}

/-! ## The stream -/

@[simp]
theorem supervision_carryOut (w : Watch) (e : Event) :
    (w.carryOut e).supervision = w.supervision := by
  cases e with
  | _ => rfl

theorem supervision_foldl_carryOut (es : List Event) (w : Watch) :
    (es.foldl carryOut w).supervision = w.supervision := by
  induction es generalizing w with
  | nil => rfl
  | cons e es ih => rw [List.foldl_cons, ih, supervision_carryOut]

theorem sent_carryOut (w : Watch) (e : Event) :
    (w.carryOut e).stream.sent = w.stream.sent := by
  cases e with
  | received => exact Stream.sent_receive w.stream
  | _ => rfl

theorem sent_foldl_carryOut (es : List Event) (w : Watch) :
    (es.foldl carryOut w).stream.sent = w.stream.sent := by
  induction es generalizing w with
  | nil => rfl
  | cons e es ih => rw [List.foldl_cons, ih, sent_carryOut]

/-- Only taking a report off the stream changes what was taken. -/
theorem taken_foldl_carryOut (w : Watch) (h : .received ∉ es) :
    (es.foldl carryOut w).stream.taken = w.stream.taken := by
  induction es generalizing w with
  | nil => rfl
  | cons e es ih =>
      rw [List.mem_cons, not_or] at h
      rw [List.foldl_cons, ih _ h.2]
      cases e with
      | received => exact absurd rfl h.1
      | _ => rfl

/-- A look takes off the stream what it finds in front. -/
theorem taken_look {s : Supervision} (hl : w.supervision.look w.glance = some (es, s))
    (hr : w.supervision.run.outcome? = none) :
    (es.foldl carryOut { w with supervision := s }).stream.taken =
      w.stream.taken ++ w.supervision.received w.glance := by
  rcases Supervision.look_received hl hr with ⟨r, rest, hh, hrec, rfl, hrest⟩ | ⟨hrec, hnot⟩
  · rw [List.foldl_cons, taken_foldl_carryOut _ hrest, hrec]
    exact Stream.taken_receive hh
  · rw [taken_foldl_carryOut _ hnot, hrec, List.append_nil]

/-! ## What has come of the supervision -/

/-- What has come of the supervision in a watch. -/
def Accounted (phase : Phase) (es : List Event) (w : Watch) : Prop :=
  w.supervision.phase = phase ∧
    (w.supervision.Underway w.stream.taken es ∨
      ∃ r, w.supervision.result? = some r ∧ Lifecycle phase w.stream.taken es r)

/-- Whatever happens is accounted for. -/
theorem accounted_move? {phase : Phase} {h : Happening} {more : List Event}
    (hacc : Accounted phase es w) (hm : w.move? h = some (more, w')) :
    Accounted phase (es ++ more) w' := by
  cases h with
  | pass ms =>
      cases hm
      rw [List.append_nil]
      exact hacc
  | answer a =>
      rw [move?] at hm
      split at hm
      · cases hm
        rw [List.append_nil]
        exact hacc
      · cases hm
  | send r =>
      rw [move?] at hm
      split at hm
      · cases hm
      · cases hm
        rw [List.append_nil, Accounted, Stream.taken_send]
        exact hacc
  | close =>
      cases hm
      rw [List.append_nil]
      exact hacc
  | look =>
      obtain ⟨⟨es', s⟩, hl, hw⟩ := Option.map_eq_some_iff.mp hm
      cases hw
      obtain ⟨hphase, hunder | ⟨r, hr, _⟩⟩ := hacc
      · rw [Accounted, supervision_foldl_carryOut, taken_look hl hunder.outcome?]
        refine ⟨(Supervision.frame_look hl hunder.outcome?).1.trans hphase, ?_⟩
        rw [← hphase]
        exact hunder.look hl
      · rw [Supervision.result?_of_look hl] at hr
        cases hr

/-! ## What was sent -/

/-- Nothing more is sent on a stream that is closed or has no reader. -/
def Silenced (w : Watch) : Prop := w.closed ∨ w.stream.listening = false

theorem silenced_carryOut (h : w.Silenced) (e : Event) : (w.carryOut e).Silenced := by
  cases e with
  | received => exact h.imp id fun hl => (Stream.listening_receive _).trans hl
  | released => exact Or.inr rfl
  | _ => exact h

theorem silenced_foldl_carryOut (h : w.Silenced) (es : List Event) :
    (es.foldl carryOut w).Silenced := by
  induction es generalizing w with
  | nil => exact h
  | cons e es ih => exact ih (silenced_carryOut h e)

/-- What is sent on a silenced stream is lost. -/
theorem silenced_move? {h : Happening} (hsil : w.Silenced) (hm : w.move? h = some (es, w')) :
    w'.Silenced ∧ w'.stream.sent = w.stream.sent := by
  cases h with
  | pass ms => cases hm; exact ⟨hsil, rfl⟩
  | answer a =>
      rw [move?] at hm
      split at hm
      · cases hm; exact ⟨hsil, rfl⟩
      · cases hm
  | send r =>
      rw [move?] at hm
      split at hm
      · cases hm
      · rename_i hopen
        cases hm
        rcases hsil with hclosed | hl
        · exact absurd hclosed hopen
        · refine ⟨Or.inr ((Stream.listening_send _ _).trans hl), ?_⟩
          rw [Stream.sent_send, hl]
          rfl
  | close => cases hm; exact ⟨Or.inl rfl, rfl⟩
  | look =>
      obtain ⟨⟨es', s⟩, hl, hw⟩ := Option.map_eq_some_iff.mp hm
      cases hw
      exact ⟨silenced_foldl_carryOut (w := { w with supervision := s }) hsil es,
        sent_foldl_carryOut es { w with supervision := s }⟩

/-- On a stream that is not silenced, a report that is sent comes last. -/
theorem sent_move? {h : Happening} (hsil : ¬ w.Silenced) :
    (∃ es w', w.move? h = some (es, w') ∧ w'.stream.sent = w.stream.sent ++ h.report?.toList) ∨
      w.move? h = none ∧ h.report? = none := by
  cases h with
  | pass ms => exact Or.inl ⟨_, _, rfl, (List.append_nil _).symm⟩
  | answer a =>
      rw [move?]
      split
      · exact Or.inl ⟨_, _, rfl, (List.append_nil _).symm⟩
      · exact Or.inr ⟨rfl, rfl⟩
  | send r =>
      rw [move?, if_neg fun hclosed => hsil (Or.inl hclosed)]
      refine Or.inl ⟨_, _, rfl, ?_⟩
      show (w.stream.send r).sent = w.stream.sent ++ [r]
      rw [Stream.sent_send, if_pos]
      cases hl : w.stream.listening with
      | true => rfl
      | false => exact absurd (Or.inr hl) hsil
  | close => exact Or.inl ⟨_, _, rfl, (List.append_nil _).symm⟩
  | look =>
      rw [move?]
      cases w.supervision.look w.glance with
      | none => exact Or.inr ⟨rfl, rfl⟩
      | some l =>
          refine Or.inl ⟨_, _, rfl, ?_⟩
          exact (sent_foldl_carryOut l.1 { w with supervision := l.2 }).trans
            (List.append_nil _).symm

/-- Nothing is added to what was sent once the stream is silenced. -/
theorem sent_play_of_silenced {j : List Event × Watch} (hsil : j.2.Silenced)
    (hs : List Happening) : (play (recorded move?) j hs).2.stream.sent = j.2.stream.sent := by
  refine (play_induction (P := fun k : List Event × Watch =>
    k.2.Silenced ∧ k.2.stream.sent = j.2.stream.sent) ?_ ⟨hsil, rfl⟩ hs).2
  rintro h k l ⟨hk, hsent⟩ hm
  obtain ⟨es, hm, _⟩ := recorded_eq_some_iff.mp hm
  obtain ⟨hl, heq⟩ := silenced_move? hk hm
  exact ⟨hl, heq.trans hsent⟩

/-- All that was sent while there was a reader is a beginning of what the engine
sends. -/
theorem sent_play_prefix_reports (j : List Event × Watch) (hs : List Happening) :
    (play (recorded move?) j hs).2.stream.sent <+:
      j.2.stream.sent ++ hs.filterMap Happening.report? := by
  induction hs generalizing j with
  | nil => exact List.prefix_append _ _
  | cons h hs ih =>
      by_cases hsil : j.2.Silenced
      · rw [sent_play_of_silenced hsil]
        exact List.prefix_append _ _
      · show (play (recorded move?) ((recorded move? h j).getD j) hs).2.stream.sent <+: _
        rw [List.filterMap_cons]
        rcases sent_move? (h := h) hsil with ⟨es, w', hm, hsent⟩ | ⟨hm, hnone⟩
        · have hr : recorded move? h j = some (j.1 ++ es, w') :=
            recorded_eq_some_iff.mpr ⟨es, hm, rfl⟩
          rw [hr]
          have hp := ih (j.1 ++ es, w')
          rw [show (j.1 ++ es, w').2.stream.sent = _ from hsent, List.append_assoc] at hp
          cases hrep : h.report? with
          | none => rw [hrep] at hp; exact hp
          | some r => rw [hrep] at hp; exact hp
        · rw [recorded, hm, hnone]
          exact ih j

/-- Whatever an engine does, and whenever: a supervision that has a result has
completed its lifecycle, and the reports passed on are a beginning of those the
engine sends. -/
theorem lifecycle_of_result (phase : Phase) (engine : Nat) (budget : Budget)
    (now capacity : Nat) (hs : List Happening) {r : Except PhaseError Unit}
    (h : (after phase engine budget now capacity hs).2.supervision.result? = some r) :
    Lifecycle phase (after phase engine budget now capacity hs).2.stream.taken
        (after phase engine budget now capacity hs).1 r ∧
      (after phase engine budget now capacity hs).2.stream.taken <+:
        hs.filterMap Happening.report? := by
  have hacc : Accounted phase (after phase engine budget now capacity hs).1
      (after phase engine budget now capacity hs).2 := by
    refine play_induction (P := fun j : List Event × Watch => Accounted phase j.1 j.2) ?_ ?_ hs
    · intro m j k hj hm
      obtain ⟨es, hm, hes⟩ := recorded_eq_some_iff.mp hm
      rw [hes]
      exact accounted_move? hj hm
    · exact ⟨rfl, Or.inl (Supervision.underway_start phase engine budget now)⟩
  obtain ⟨_, hunder | ⟨r', hr', hlife⟩⟩ := hacc
  · rw [hunder.result?] at h
    cases h
  · rw [hr', Option.some.injEq] at h
    subst h
    exact ⟨hlife, (List.prefix_append _ _).trans (sent_play_prefix_reports _ hs)⟩

/-- An engine that reports a failure while it winds down. -/
def windingDown : List Happening :=
  [.pass 1, .answer (.ok ()), .look, .send ⟨"dex", "kyma-system", .inProgress, none⟩, .look,
    .pass 4, .look, .send (.failed "dex" "kyma-system" "release stuck"), .close, .look, .look,
    .send (.removed "dex" "kyma-system")]

theorem lifecycle_of_windingDown :
    (after .components 0 ⟨.ofMillis 5, .ofMillis 9⟩ 0 1 windingDown).2.supervision.result? =
        some (.error (.componentFailure .components 1)) ∧
      Lifecycle .components
        (after .components 0 ⟨.ofMillis 5, .ofMillis 9⟩ 0 1 windingDown).2.stream.taken
        (after .components 0 ⟨.ofMillis 5, .ofMillis 9⟩ 0 1 windingDown).1
        (.error (.componentFailure .components 1)) :=
  ⟨rfl, (lifecycle_of_result .components 0 ⟨.ofMillis 5, .ofMillis 9⟩ 0 1 windingDown rfl).1⟩

end Watch

end Decommission
