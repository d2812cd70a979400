import Decommission.Proofs.Engine.Room
import Decommission.Proofs.Pool.Choice
import Decommission.Proofs.Pool.Greedy

/-!
# Pools that keep to a roster

On the clock a call of the uninstaller ends when its time has passed, and time passes
only when nobody in the pool can do anything.  The order in which the dispatcher and
the tasks move is left open, even within a millisecond.

A pool whose signal is never fired then keeps to the list schedule of its roster
(`Pool.Paced`).  As long as components are left, the slots that the schedule has are
those that tasks hold, until their removals end, and those that are free right now.
So the component that is handed out next starts when the schedule says.  Every action
at its time preserves this (`Paced.act`), and so does time that passes (`Paced.pass`).
-/

namespace Decommission

namespace Roster

/-- The report on the component at a position: it was removed, or there was an error, whose
text is given. -/
def reportOn (z : Roster) (i : Nat) (c : Component) : Report :=
  match z.uninstaller.verdict i c with
  | none => ⟨c.name, c.space, .success, none⟩
  | some e => ⟨c.name, c.space, .error, some e.message⟩

/-- What the task of the component at a position does, and when. -/
def taskOf (z : Roster) (i : Nat) (c : Component) : List (Nat × Pool.Action) :=
  [(z.startsAt i, .call i (z.endsAt i)),
    (z.endsAt i, .conclude i (z.uninstaller.verdict i c)), (z.endsAt i, .report i)]

/-- The report that arrives by an action, and when. -/
def arrival? (z : Roster) : Nat × Pool.Action → Option (Nat × Report)
  | (time, .report i) => (z.components[i]?).map fun c => (time, z.reportOn i c)
  | _ => none

/-- The pool of the roster before its first action. -/
def pool (z : Roster) : Pool := .start z.workers z.components

end Roster

namespace Pool

/-! ## Tasks and their positions -/

/-- What is found at the tasks and their positions, which count from `i` on. -/
def gather {β : Type} (f : Nat → Task → Option β) : Nat → List Task → List β
  | _, [] => []
  | i, t :: ts => (f i t).toList ++ gather f (i + 1) ts

section Gather

variable {β : Type} {f : Nat → Task → Option β}

theorem gather_append (i : Nat) (ts us : List Task) :
    gather f i (ts ++ us) = gather f i ts ++ gather f (i + ts.length) us := by
  induction ts generalizing i with
  | nil => rfl
  | cons t ts ih =>
      rw [List.cons_append, gather, gather, ih, List.append_assoc, List.length_cons]
      congr 3
      omega

theorem gather_split (before after : List Task) (t : Task) :
    gather f 0 (before ++ t :: after) =
      gather f 0 before ++ ((f before.length t).toList ++ gather f (before.length + 1) after) := by
  rw [gather_append, Nat.zero_add]
  rfl

theorem mem_gather {x : β} {i : Nat} {ts : List Task} (h : x ∈ gather f i ts) :
    ∃ (n : Nat) (t : Task), ts[n]? = some t ∧ f (i + n) t = some x := by
  induction ts generalizing i with
  | nil => cases h
  | cons t ts ih =>
      rcases List.mem_append.mp h with hx | hx
      · exact ⟨0, t, rfl, Option.mem_toList.mp hx⟩
      · obtain ⟨n, t', ht, hf⟩ := ih hx
        refine ⟨n + 1, t', ht, ?_⟩
        rw [← hf]
        congr 1
        omega

/-- Where something is found at every task, it is found at every component. -/
theorem gather_of_all {g : Nat → Component → β} {i : Nat} {ts : List Task}
    (h : ∀ n t, ts[n]? = some t → f (i + n) t = some (g (i + n) t.component)) :
    gather f i ts = (ts.map Task.component).mapIdx fun n c => g (i + n) c := by
  induction ts generalizing i with
  | nil => rfl
  | cons t ts ih =>
      have hhead : f i t = some (g (i + 0) t.component) := h 0 t rfl
      rw [gather, hhead, List.map_cons, List.mapIdx_cons, ih]
      · have hshift : (fun n c => g (i + 1 + n) c) = fun n c => g (i + (n + 1)) c := by
          funext n c
          congr 1
          omega
        rw [hshift]
        rfl
      · intro n t' ht
        have hn := h (n + 1) t' ht
        rw [show i + (n + 1) = i + 1 + n by omega] at hn
        exact hn

end Gather

/-- When a task gives its slot back, if it holds one. -/
def heldUntil (z : Roster) (i : Nat) (t : Task) : Option Nat :=
  if t.holdsSlot then some (z.endsAt i) else none

theorem length_held (z : Roster) (i : Nat) (ts : List Task) :
    (gather (heldUntil z) i ts).length = (ts.filter Task.holdsSlot).length := by
  induction ts generalizing i with
  | nil => rfl
  | cons t ts ih =>
      rw [gather, List.length_append, ih, heldUntil, List.filter_cons]
      split
      · rw [List.length_cons, Nat.add_comm]
        rfl
      · exact Nat.zero_add _

theorem free_eq (z : Roster) (p : Pool) :
    p.free = p.workers - (gather (heldUntil z) 0 p.tasks).length := by
  rw [free, length_held]

/-- The report that a task has sent, and when, if it has sent it. -/
def arrived (z : Roster) (i : Nat) (t : Task) : Option (Nat × Report) :=
  t.report?.map fun _ => (z.endsAt i, z.reportOn i t.component)

/-! ## On the clock -/

/-- A task that keeps to the roster, and what it has done. -/
inductive OnTime (z : Roster) (now i : Nat) : Option Task → List (Nat × Action) → Prop
  | nothing : OnTime z now i none []
  | ready (c : Component) : now = z.startsAt i → OnTime z now i (some ⟨c, .ready⟩) []
  | calling (c : Component) : z.startsAt i ≤ now → now ≤ z.endsAt i →
      OnTime z now i (some ⟨c, .calling (z.endsAt i)⟩) ((z.taskOf i c).take 1)
  | returned (c : Component) : now = z.endsAt i →
      OnTime z now i (some ⟨c, .returned (z.uninstaller.verdict i c)⟩) ((z.taskOf i c).take 2)
  | reported (c : Component) : z.endsAt i ≤ now →
      OnTime z now i (some ⟨c, .reported (z.uninstaller.verdict i c)⟩) (z.taskOf i c)

section OnTime

variable {z : Roster} {now i : Nat} {c : Component} {v : Verdict} {es : List (Nat × Action)}

/-- A slot is not held beyond the time it is given back. -/
theorem OnTime.le_endsAt {t : Task} (h : OnTime z now i (some t) es) (hslot : t.holdsSlot) :
    now ≤ z.endsAt i := by
  cases h with
  | ready c hnow => exact hnow ▸ z.startsAt_le_endsAt i
  | calling c _ hnow => exact hnow
  | returned | reported => cases hslot

/-- A call does not end before the roster says. -/
theorem OnTime.due_le {due : Nat} (h : OnTime z now i (some ⟨c, .calling due⟩) es) :
    due ≤ z.endsAt i := by
  cases h with
  | calling => exact Nat.le_refl _

/-- A call that is made in time ends when the roster says. -/
theorem OnTime.call (h : OnTime z now i (some ⟨c, .ready⟩) es)
    (hc : z.components[i]? = some c) :
    OnTime z now i (some ⟨c, .calling (now + z.uninstaller.delay i c)⟩)
      (es ++ [(now, .call i (now + z.uninstaller.delay i c))]) := by
  cases h with
  | ready _ hnow =>
      have hends : now + z.uninstaller.delay i c = z.endsAt i := by
        rw [Roster.endsAt_eq hc, ← hnow]
      rw [hends, hnow]
      exact .calling c (Nat.le_refl _) (z.startsAt_le_endsAt i)

/-- A call ends in time. -/
theorem OnTime.conclude {due : Nat} (h : OnTime z now i (some ⟨c, .calling due⟩) es)
    (hdue : due ≤ now) :
    now = z.endsAt i ∧ OnTime z now i (some ⟨c, .returned (z.uninstaller.verdict i c)⟩)
      (es ++ [(now, .conclude i (z.uninstaller.verdict i c))]) := by
  cases h with
  | calling _ _ hnow =>
      have hends := Nat.le_antisymm hnow hdue
      refine ⟨hends, ?_⟩
      rw [hends]
      exact .returned c rfl

/-- A report arrives in time. -/
theorem OnTime.report (h : OnTime z now i (some ⟨c, .returned v⟩) es) :
    now = z.endsAt i ∧ v = z.uninstaller.verdict i c ∧
      OnTime z now i (some ⟨c, .reported v⟩) (es ++ [(now, .report i)]) := by
  cases h with
  | returned _ hnow =>
      refine ⟨hnow, rfl, ?_⟩
      rw [hnow]
      exact .reported c (Nat.le_refl _)

/-- A task that is over has done all it had to do. -/
theorem OnTime.over {t : Task} (h : OnTime z now i (some t) es) (hover : t.isOver) :
    z.endsAt i ≤ now ∧ t.stage = .reported (z.uninstaller.verdict i t.component) ∧
      es = z.taskOf i t.component := by
  cases h with
  | reported c hnow => exact ⟨hnow, rfl, rfl⟩
  | ready | calling | returned => cases hover

/-- A task that is over stays so, and one that is at its call later is still on time. -/
theorem OnTime.later {x : Option Task} {time : Nat} (h : OnTime z now i x es) (hle : now ≤ time)
    (hx : ∀ t, x = some t → t.isOver = false → ∃ due, t.stage = .calling due ∧ time ≤ due) :
    OnTime z time i x es := by
  cases h with
  | nothing => exact .nothing
  | ready c | returned c =>
      obtain ⟨_, hst, _⟩ := hx _ rfl rfl
      cases hst
  | calling c hstart =>
      obtain ⟨_, hst, hdue⟩ := hx _ rfl rfl
      cases hst
      exact .calling c (Nat.le_trans hstart hle) hdue
  | reported c hend => exact .reported c (Nat.le_trans hend hle)

/-- What a task has done so far is what it does by the roster. -/
theorem OnTime.begins {x : Option Task} (h : OnTime z now i x es)
    (hx : ∀ t, x = some t → t.component = c) : es <+: z.taskOf i c := by
  cases h with
  | nothing => exact List.nil_prefix
  | ready _ _ => exact List.nil_prefix
  | calling c' _ _ =>
      cases hx _ rfl
      exact List.take_prefix ..
  | returned c' _ =>
      cases hx _ rfl
      exact List.take_prefix ..
  | reported c' _ =>
      cases hx _ rfl
      exact List.prefix_refl _

end OnTime

section Timely

variable {u : Uninstaller} {now : Nat} {p : Pool} {before after : List Task} {c : Component}

theorem not_isDeath_of_isTimely {a : Action} (ha : a.isTimely u now p) : ¬ a.isDeath := by
  cases a with
  | die => cases ha
  | _ => exact Bool.false_ne_true

theorem due_of_isTimely {due : Nat} (ht : p.tasks = before ++ ⟨c, .ready⟩ :: after)
    (ha : (Action.call before.length due).isTimely u now p) :
    due = now + u.delay before.length c := by
  rw [Action.isTimely, ht, getElem?_split] at ha
  exact eq_of_beq ha

theorem verdict_of_isTimely {due : Nat} {v : Verdict}
    (ht : p.tasks = before ++ ⟨c, .calling due⟩ :: after)
    (ha : (Action.conclude before.length v).isTimely u now p) :
    due ≤ now ∧ v = u.verdict before.length c := by
  rw [Action.isTimely, ht, getElem?_split] at ha
  obtain ⟨hdue, hv⟩ := Bool.and_eq_true_iff.mp ha
  exact ⟨of_decide_eq_true hdue, eq_of_beq hv⟩

end Timely

/-- A pool that keeps to a roster, and what it has done. -/
structure Paced (z : Roster) (now : Nat) (log : List (Nat × Action)) (p : Pool) : Prop where
  workers : p.workers = z.workers
  books : p.Books z.components false
  slots : (p.tasks.filter Task.holdsSlot).length ≤ p.workers
  room : p.stream.waiting.length + p.toSend ≤ p.stream.capacity
  listening : p.stream.listening
  tasks : ∀ i, OnTime z now i p.tasks[i]? (log.filter fun e => e.2.isOf i)
  /-- As long as components are left, the slots are those that are held and those that
  are free right now. -/
  greedy : ∀ c rest, p.dispatcher = .dispatching (c :: rest) →
    (z.slotsBefore p.tasks.length).Perm
      (gather (heldUntil z) 0 p.tasks ++ List.replicate p.free now)
  begun : z.start ≤ now
  /-- The dispatcher does not outlast the removals. -/
  brief : p.dispatcher = .ended ∨ now = z.start ∨ ∃ i < p.tasks.length, now ≤ z.endsAt i
  closing : log.filter (fun e => e.2 = .close) =
    if p.dispatcher = .ended then [(z.latest, .close)] else []
  ordered : log.Pairwise fun e f => e.1 ≤ f.1
  past : ∀ e ∈ log, e.1 ≤ now
  arrivals : (log.filterMap z.arrival?).Perm (gather (arrived z) 0 p.tasks)
  sent : p.stream.sent = (log.filterMap z.arrival?).map Prod.snd

variable {z : Roster} {now : Nat} {log : List (Nat × Action)} {p p' : Pool} {a : Action}

theorem paced_start (hw : z.workers ≤ slotLimit) : Paced z z.start [] z.pool where
  workers := rfl
  books := books_start hw z.components false
  slots := Nat.zero_le _
  room := by
    show 0 + (0 + z.components.length) ≤ max 1 z.components.length
    omega
  listening := rfl
  tasks _ := .nothing
  greedy _ _ _ := .refl _
  begun := Nat.le_refl _
  brief := .inr (.inl rfl)
  closing := rfl
  ordered := .nil
  past := nofun
  arrivals := .refl _
  sent := rfl

/-! ## What a paced pool is like -/

/-- The tasks are those of the first components. -/
theorem Paced.component (h : Paced z now log p) {i : Nat} {t : Task}
    (ht : p.tasks[i]? = some t) : z.components[i]? = some t.component := by
  obtain ⟨rest, hcs, _⟩ := h.books.handedOut
  have hlt := (List.getElem?_eq_some_iff.mp ht).1
  rw [← hcs, List.getElem?_append_left (by rw [List.length_map]; exact hlt), List.getElem?_map, ht]
  rfl

/-- What is done about a component, as long as it lasts, is on schedule. -/
theorem Paced.begins (h : Paced z now log p) {i : Nat} {c : Component}
    (hi : z.components[i]? = some c) : (log.filter fun e => e.2.isOf i) <+: z.taskOf i c :=
  (h.tasks i).begins fun _ ht => Option.some.inj ((h.component ht).symm.trans hi)

/-- The dispatcher has the component before it that comes next in the list. -/
theorem Paced.component_next (h : Paced z now log p) {c : Component} {rest : List Component}
    (hd : p.dispatcher = .dispatching (c :: rest)) :
    z.components[p.tasks.length]? = some c := by
  obtain ⟨left, hcs, hleft⟩ := h.books.handedOut
  rw [HasLeft, hd] at hleft
  subst hleft
  rw [← hcs, List.getElem?_append_right (Nat.le_of_eq (List.length_map _)),
    List.length_map, Nat.sub_self]
  rfl

/-- Once nothing is left, all components were handed out. -/
theorem Paced.components_eq (h : Paced z now log p)
    (hd : p.dispatcher = .draining ∨ p.dispatcher = .ended) :
    p.tasks.map Task.component = z.components := by
  obtain ⟨rest, hcs, hleft⟩ := h.books.handedOut
  have hrest : rest = [] := by
    rw [HasLeft] at hleft
    rcases hd with hd | hd
    · rw [hd] at hleft
      exact hleft.resolve_right Bool.false_ne_true
    · rw [hd] at hleft
      exact hleft.resolve_right Bool.false_ne_true
  rw [← hcs, hrest, List.append_nil]

theorem Paced.length_eq (h : Paced z now log p)
    (hd : p.dispatcher = .draining ∨ p.dispatcher = .ended) :
    p.tasks.length = z.components.length := by
  rw [← h.components_eq hd, List.length_map]

/-- No slot is held beyond the time it is given back. -/
theorem Paced.le_held (h : Paced z now log p) {time : Nat}
    (hm : time ∈ gather (heldUntil z) 0 p.tasks) : now ≤ time := by
  obtain ⟨n, t, ht, hheld⟩ := mem_gather hm
  rw [Nat.zero_add, heldUntil] at hheld
  split at hheld
  · cases hheld
    exact OnTime.le_endsAt (ht ▸ h.tasks n) ‹_›
  · cases hheld

/-- A component that is handed out starts when the roster says. -/
theorem Paced.startsAt_next (h : Paced z now log p) {c : Component} {rest : List Component}
    (hd : p.dispatcher = .dispatching (c :: rest)) (hfree : 0 < p.free) :
    z.startsAt p.tasks.length = now := by
  obtain ⟨n, hn⟩ : ∃ n, p.free = n + 1 := ⟨p.free - 1, by omega⟩
  have hgreedy := h.greedy c rest hd
  rw [hn] at hgreedy
  exact earliest_of_perm hgreedy fun _ => h.le_held

/-- There is room for every report that is to be sent. -/
theorem Paced.isReady (h : Paced z now log p) {i : Nat} {c : Component} {v : Verdict}
    (ht : p.tasks[i]? = some ⟨c, .returned v⟩) : p.stream.isReady := by
  have hleft : 0 < p.toSend :=
    (Work.Sending.pool z.uninstaller p i c v ht).toSend_pos
  have hroom := h.room
  rw [Stream.isReady, decide_eq_true (by omega), Bool.or_true]

/-! ## What an action at its time preserves -/

/-- A task at a position keeps to the roster. -/
theorem Paced.task (h : Paced z now log p) {before after : List Task} {t : Task}
    (ht : p.tasks = before ++ t :: after) :
    OnTime z now before.length (some t) (log.filter fun e => e.2.isOf before.length) := by
  have htask := h.tasks before.length
  rwa [ht, getElem?_split] at htask

/-- The report on a component arrives by the action that sends it. -/
theorem Paced.arrival?_report (h : Paced z now log p) {before after : List Task} {t : Task}
    (ht : p.tasks = before ++ t :: after) :
    z.arrival? (now, .report before.length) =
      some (now, z.reportOn before.length t.component) := by
  rw [Roster.arrival?, h.component (ht ▸ getElem?_split)]
  rfl

theorem Paced.tasks_act (h : Paced z now log p) (hs : p.step false a = some p')
    (ha : a.isTimely z.uninstaller now p) (i : Nat) :
    OnTime z now i p'.tasks[i]? ((log ++ [(now, a)]).filter fun e => e.2.isOf i) := by
  cases step_cases hs with
  | collapse | heed | exhaust | close =>
      rw [filter_concat_of_not (e := (now, _)) rfl]
      exact h.tasks i
  | dispatch c rest hd hw hf hfree =>
      refine each_appended (f := fun i (e : Nat × Action) => e.2.isOf i) h.tasks
        (fun _ => rfl) ?_ i
      intro es hes
      cases hes
      exact .ready c (h.startsAt_next hd hfree).symm
  | call before after c due ht =>
      refine each_replaced (f := fun i (e : Nat × Action) => e.2.isOf i) (ht ▸ h.tasks)
        (fun _ => rfl) ?_ i
      intro es hes
      rw [due_of_isTimely ht ha]
      exact hes.call (h.component (ht ▸ getElem?_split))
  | conclude before after c due v ht =>
      refine each_replaced (f := fun i (e : Nat × Action) => e.2.isOf i) (ht ▸ h.tasks)
        (fun _ => rfl) ?_ i
      intro es hes
      obtain ⟨hdue, rfl⟩ := verdict_of_isTimely ht ha
      exact (hes.conclude hdue).2
  | report before after c v ht =>
      refine each_replaced (f := fun i (e : Nat × Action) => e.2.isOf i) (ht ▸ h.tasks)
        (fun _ => rfl) ?_ i
      intro es hes
      exact hes.report.2.2
  | die => cases ha

/-- The task of the component that is handed out takes the first slot that is free. -/
theorem Paced.greedy_dispatch (h : Paced z now log p) {c : Component} {rest : List Component}
    (hd : p.dispatcher = .dispatching (c :: rest)) (hfree : 0 < p.free) {q : Pool}
    (hq : q.tasks = p.tasks ++ [⟨c, .ready⟩]) (hworkers : q.workers = p.workers) :
    (z.slotsBefore q.tasks.length).Perm
      (gather (heldUntil z) 0 q.tasks ++ List.replicate q.free now) := by
  obtain ⟨n, hn⟩ : ∃ n, p.free = n + 1 := ⟨p.free - 1, by omega⟩
  have hgreedy := h.greedy c rest hd
  rw [hn] at hgreedy
  have hnext := h.component_next hd
  have hends : z.endsAt p.tasks.length = now + z.uninstaller.delay p.tasks.length c := by
    rw [Roster.endsAt_eq hnext, h.startsAt_next hd hfree]
  have hheld : gather (heldUntil z) 0 q.tasks =
      gather (heldUntil z) 0 p.tasks ++ [z.endsAt p.tasks.length] := by
    rw [hq, gather_append, Nat.zero_add]
    rfl
  have hfree' : q.free = n := by
    rw [free_eq z] at hn ⊢
    rw [hheld, hworkers, List.length_append, List.length_singleton]
    omega
  rw [hfree', hheld, hends, hq, List.length_append, List.length_singleton,
    Roster.slotsBefore_succ hnext]
  exact occupy_perm hgreedy (fun _ => h.le_held) _

/-- A task that holds a slot as before leaves the slots as they are. -/
theorem Paced.greedy_same (h : Paced z now log p) {c : Component} {rest : List Component}
    (hd : p.dispatcher = .dispatching (c :: rest)) {before after : List Task} {t t' : Task}
    (ht : p.tasks = before ++ t :: after) {q : Pool} (hq : q.tasks = before ++ t' :: after)
    (hworkers : q.workers = p.workers) (hslot : t'.holdsSlot = t.holdsSlot) :
    (z.slotsBefore q.tasks.length).Perm
      (gather (heldUntil z) 0 q.tasks ++ List.replicate q.free now) := by
  have hheld : gather (heldUntil z) 0 q.tasks = gather (heldUntil z) 0 p.tasks := by
    rw [ht, hq, gather_split, gather_split, heldUntil, heldUntil, hslot]
  have hcount : q.tasks.length = p.tasks.length := by simp [ht, hq]
  rw [hcount, free_eq z, hheld, hworkers, ← free_eq z]
  exact h.greedy c rest hd

/-- A slot that was held until now is free. -/
theorem Paced.greedy_release (h : Paced z now log p) {c : Component} {rest : List Component}
    (hd : p.dispatcher = .dispatching (c :: rest)) {before after : List Task} {t t' : Task}
    (ht : p.tasks = before ++ t :: after) {q : Pool} (hq : q.tasks = before ++ t' :: after)
    (hworkers : q.workers = p.workers) (hslot : t.holdsSlot) (hslot' : t'.holdsSlot = false)
    (hnow : now = z.endsAt before.length) :
    (z.slotsBefore q.tasks.length).Perm
      (gather (heldUntil z) 0 q.tasks ++ List.replicate q.free now) := by
  have hheld : gather (heldUntil z) 0 p.tasks = gather (heldUntil z) 0 before ++
      now :: gather (heldUntil z) (before.length + 1) after := by
    rw [ht, gather_split, heldUntil, if_pos hslot, hnow]
    rfl
  have hheld' : gather (heldUntil z) 0 q.tasks =
      gather (heldUntil z) 0 before ++ gather (heldUntil z) (before.length + 1) after := by
    rw [hq, gather_split, heldUntil, hslot']
    rfl
  have hfree : q.free = p.free + 1 := by
    have hslots := h.slots
    rw [← length_held z 0, hheld, List.length_append, List.length_cons] at hslots
    rw [free_eq z, free_eq z p, hheld, hheld', hworkers, List.length_append, List.length_append,
      List.length_cons]
    omega
  have hcount : q.tasks.length = p.tasks.length := by simp [ht, hq]
  have hgreedy := h.greedy c rest hd
  rw [hheld, List.append_assoc, List.cons_append] at hgreedy
  rw [hfree, hheld', hcount, List.append_assoc]
  exact hgreedy.trans (List.Perm.append_left _ List.perm_middle.symm)

theorem Paced.greedy_act (h : Paced z now log p) (hs : p.step false a = some p')
    (ha : a.isTimely z.uninstaller now p) (c : Component) (rest : List Component)
    (hd' : p'.dispatcher = .dispatching (c :: rest)) :
    (z.slotsBefore p'.tasks.length).Perm
      (gather (heldUntil z) 0 p'.tasks ++ List.replicate p'.free now) := by
  cases step_cases hs with
  | collapse | exhaust | close => cases hd'
  | heed _ _ _ hf => cases hf
  | dispatch c' rest' hd hw hf hfree => exact h.greedy_dispatch hd hfree rfl rfl
  | call before after c' due ht => exact h.greedy_same hd' ht rfl rfl rfl
  | conclude before after c' due v ht =>
      have hdue := (verdict_of_isTimely ht ha).1
      exact h.greedy_release hd' ht rfl rfl rfl rfl ((h.task ht).conclude hdue).1
  | report before after c' v ht => exact h.greedy_same hd' ht rfl rfl rfl
  | die => cases ha

theorem Paced.not_ended (h : Paced z now log p) (hs : p.step false a = some p') :
    p.dispatcher ≠ .ended := by
  intro hd
  have hc : p.isClosed := by
    rw [isClosed, hd, h.books.lastly hd]
    rfl
  rw [step_of_isClosed hc] at hs
  cases hs

/-- Whoever moves, the dispatcher ends by closing the stream. -/
theorem Paced.ended_iff (h : Paced z now log p) (hs : p.step false a = some p') :
    p'.dispatcher = .ended ↔ a = .close := by
  have hopen := h.not_ended hs
  cases step_cases hs with
  | close => exact ⟨fun _ => rfl, fun _ => rfl⟩
  | collapse | dispatch | heed | exhaust => exact ⟨nofun, nofun⟩
  | call | conclude | report | die => exact ⟨fun hd => absurd hd hopen, nofun⟩

theorem Paced.brief_act (h : Paced z now log p) (hs : p.step false a = some p') :
    p'.dispatcher = .ended ∨ now = z.start ∨ ∃ i < p'.tasks.length, now ≤ z.endsAt i := by
  have hbrief := h.brief.resolve_left (h.not_ended hs)
  cases step_cases hs with
  | close => exact .inl rfl
  | dispatch c rest hd hw hf hfree =>
      refine .inr (.inr ⟨p.tasks.length, ?_, ?_⟩)
      · rw [List.length_append]
        exact Nat.lt_succ_self _
      · rw [← h.startsAt_next hd hfree]
        exact z.startsAt_le_endsAt _
  | collapse | heed | exhaust => exact .inr hbrief
  | call before after c due ht => exact .inr (by simpa [ht] using hbrief)
  | conclude before after c due v ht => exact .inr (by simpa [ht] using hbrief)
  | report before after c v ht => exact .inr (by simpa [ht] using hbrief)
  | die before after t ht => exact .inr (by simpa [ht] using hbrief)

/-- When all tasks are over, the last removal is just over. -/
theorem Paced.latest_eq (h : Paced z now log p) (hd : p.dispatcher = .draining)
    (hover : p.allOver) : z.latest = now := by
  have hcount := h.length_eq (.inl hd)
  refine Nat.le_antisymm (Roster.latest_le_iff.mpr ⟨h.begun, fun i hi => ?_⟩) ?_
  · rw [← hcount] at hi
    have htask := h.tasks i
    rw [List.getElem?_eq_getElem hi] at htask
    rw [allOver, List.all_eq_true] at hover
    exact (htask.over (hover _ (List.getElem_mem hi))).1
  · rcases h.brief.resolve_left (fun he => by cases hd.symm.trans he) with hnow | ⟨i, hi, hnow⟩
    · exact hnow ▸ z.start_le_latest
    · exact Nat.le_trans hnow (Roster.endsAt_le_latest (hcount ▸ hi))

theorem Paced.closing_act (h : Paced z now log p) (hs : p.step false a = some p') :
    (log ++ [(now, a)]).filter (fun e => e.2 = .close) =
      if p'.dispatcher = .ended then [(z.latest, .close)] else [] := by
  have hnone : log.filter (fun e => e.2 = .close) = [] := by
    rw [h.closing, if_neg (h.not_ended hs)]
  rw [List.filter_append, hnone, List.nil_append]
  by_cases ha : a = .close
  · rw [if_pos ((h.ended_iff hs).mpr ha)]
    subst ha
    cases step_cases hs with
    | close hd hover =>
        rw [h.latest_eq hd hover]
        rfl
  · rw [if_neg fun hd => ha ((h.ended_iff hs).mp hd)]
    exact List.filter_cons_of_neg (by simpa using ha)

theorem Paced.arrivals_act (h : Paced z now log p) (hs : p.step false a = some p')
    (ha : a.isTimely z.uninstaller now p) :
    ((log ++ [(now, a)]).filterMap z.arrival?).Perm (gather (arrived z) 0 p'.tasks) := by
  -- An action that sends nothing leaves everything that has arrived as it is.
  have hsilent : ∀ {x : Pool.Action} {ts : List Task}, z.arrival? (now, x) = none →
      gather (arrived z) 0 ts = gather (arrived z) 0 p.tasks →
      ((log ++ [(now, x)]).filterMap z.arrival?).Perm (gather (arrived z) 0 ts) := by
    intro x ts hx hts
    rw [List.filterMap_append, List.filterMap_cons_none hx, List.filterMap_nil, List.append_nil,
      hts]
    exact h.arrivals
  cases step_cases hs with
  | collapse | heed | exhaust | close => exact hsilent rfl rfl
  | dispatch c rest hd =>
      refine hsilent rfl ?_
      rw [gather_append]
      exact List.append_nil _
  | call before after c due ht => exact hsilent rfl (by rw [ht, gather_split, gather_split]; rfl)
  | conclude before after c due v ht =>
      exact hsilent rfl (by rw [ht, gather_split, gather_split]; rfl)
  | report before after c v ht =>
      have hnow := (h.task ht).report.1
      have harrived := h.arrivals
      rw [ht, gather_split] at harrived
      rw [List.filterMap_append, List.filterMap_cons_some (h.arrival?_report ht),
        List.filterMap_nil, gather_split, hnow]
      have hnew : arrived z before.length ⟨c, .reported v⟩ =
          some (z.endsAt before.length, z.reportOn before.length c) := by
        rw [arrived, Task.report?_eq rfl]
        rfl
      rw [hnew]
      refine (harrived.append_right _).trans ?_
      rw [List.append_assoc]
      exact List.Perm.append_left _ List.perm_append_comm
  | die => cases ha

theorem Paced.sent_act (h : Paced z now log p) (hs : p.step false a = some p')
    (ha : a.isTimely z.uninstaller now p) :
    p'.stream.sent = ((log ++ [(now, a)]).filterMap z.arrival?).map Prod.snd := by
  rw [List.filterMap_append, List.map_append, ← h.sent]
  cases step_cases hs with
  | report before after c v ht =>
      have hv := (h.task ht).report.2.1
      rw [Stream.sent_send, if_pos h.listening, List.filterMap_cons_some (h.arrival?_report ht), hv]
      rfl
  | collapse | dispatch | heed | exhaust | close | call | conclude =>
      exact (List.append_nil _).symm
  | die => cases ha

theorem Paced.room_act (h : Paced z now log p) (hs : p.step false a = some p') :
    p'.stream.waiting.length + p'.toSend ≤ p'.stream.capacity := by
  have hroom := h.room
  rw [(frame_step hs).2]
  cases Work.spent_pool (u := z.uninstaller) hs with
  | quiet _ hstream hleft =>
      change p'.stream = p.stream at hstream
      change p'.toSend ≤ p.toSend at hleft
      rw [hstream]
      omega
  | sent r _ hstream hleft =>
      change p'.stream = p.stream.send r at hstream
      change p'.toSend < p.toSend at hleft
      rw [hstream, Stream.send, if_pos h.listening, List.length_append, List.length_singleton]
      omega

theorem Paced.act (h : Paced z now log p) (hs : p.step false a = some p')
    (ha : a.isTimely z.uninstaller now p) : Paced z now (log ++ [(now, a)]) p' where
  workers := (frame_step hs).1.trans h.workers
  books := h.books.step hs (not_isDeath_of_isTimely ha)
  slots := slots_step h.slots hs
  room := h.room_act hs
  listening := (stream_step hs).2.trans h.listening
  tasks := h.tasks_act hs ha
  greedy := h.greedy_act hs ha
  begun := h.begun
  brief := h.brief_act hs
  closing := h.closing_act hs
  ordered := List.pairwise_append.mpr ⟨h.ordered, List.pairwise_singleton .., fun e he f hf => by
    rw [List.mem_singleton.mp hf]
    exact h.past e he⟩
  past e he := by
    rcases List.mem_append.mp he with he | he
    · exact h.past e he
    · exact Nat.le_of_eq (congrArg Prod.fst (List.mem_singleton.mp he))
  arrivals := h.arrivals_act hs ha
  sent := h.sent_act hs ha

/-- The reader takes nothing from the roster. -/
theorem Paced.receive (h : Paced z now log p) :
    Paced z now log { p with stream := p.stream.receive } where
  workers := h.workers
  books := h.books.onStream (Stream.sent_receive _) fun _ => h.listening
  slots := h.slots
  room := by
    have hroom := h.room
    have hless := Stream.length_waiting_receive_le p.stream
    rw [Stream.capacity_receive]
    show p.stream.receive.waiting.length + p.toSend ≤ _
    omega
  listening := by
    rw [Stream.listening_receive]
    exact h.listening
  tasks := h.tasks
  greedy := h.greedy
  begun := h.begun
  brief := h.brief
  closing := h.closing
  ordered := h.ordered
  past := h.past
  arrivals := h.arrivals
  sent := by
    rw [Stream.sent_receive]
    exact h.sent

/-! ## Time that passes -/

/-- Everybody in a pool has to wait for calls under way. -/
structure Resting (now : Nat) (p : Pool) : Prop where
  full : ∀ c rest, p.dispatcher = .dispatching (c :: rest) → p.free = 0
  /-- A task that is not over is at its call. -/
  calling : ∀ (i : Nat) (t : Task), p.tasks[i]? = some t → t.isOver = false →
    ∃ due, t.stage = .calling due ∧ now < due
  /-- Unless the dispatcher has ended, a task is not over. -/
  busy : p.dispatcher = .ended ∨ ∃ (i : Nat) (t : Task), p.tasks[i]? = some t ∧ t.isOver = false

/-- A task that has to wait is over, or at its call. -/
theorem Paced.calling_of_wait (h : Paced z now log p) {i : Nat} {t : Task}
    (ht : p.tasks[i]? = some t) (hwait : taskNext? z.uninstaller now p i t = none)
    (hbusy : t.isOver = false) : ∃ due, t.stage = .calling due ∧ now < due := by
  obtain ⟨c, stage⟩ := t
  cases stage with
  | ready => cases hwait
  | calling due =>
      refine ⟨due, rfl, ?_⟩
      rw [taskNext?] at hwait
      dsimp only at hwait
      split at hwait
      · cases hwait
      · exact Nat.not_le.mp ‹_›
  | returned v =>
      rw [taskNext?] at hwait
      dsimp only at hwait
      rw [if_pos (h.isReady ht)] at hwait
      cases hwait
  | reported | dead => cases hbusy

/-- Where no slot is free, a task holds one. -/
theorem Paced.exists_busy (h : Paced z now log p) (hpos : 0 < z.workers) (hfree : p.free = 0) :
    ∃ (i : Nat) (t : Task), p.tasks[i]? = some t ∧ t.isOver = false := by
  have hworkers := h.workers
  rw [free] at hfree
  obtain ⟨t, ht⟩ := List.exists_mem_of_length_pos (l := p.tasks.filter Task.holdsSlot) (by omega)
  obtain ⟨hm, hslot⟩ := List.mem_filter.mp ht
  obtain ⟨i, hi⟩ := List.mem_iff_getElem?.mp hm
  refine ⟨i, t, hi, ?_⟩
  obtain ⟨c, stage⟩ := t
  cases stage with
  | ready | calling => rfl
  | returned | reported | dead => cases hslot

theorem Paced.resting (h : Paced z now log p) (hpos : 0 < z.workers)
    (hnext : p.next? z.uninstaller now false = none) : Resting now p := by
  obtain ⟨hdisp, htasks⟩ := next?_eq_none_iff.mp hnext
  have hcount := h.books.countable
  rw [dispatcherNext?] at hdisp
  have hfull : ∀ c rest, p.dispatcher = .dispatching (c :: rest) → p.free = 0 := by
    intro c rest hd
    simp only [hd, if_neg (Nat.not_lt.mpr hcount), Bool.false_eq_true, if_false] at hdisp
    split at hdisp
    · cases hdisp
    · omega
  refine ⟨hfull, fun i t ht hbusy => h.calling_of_wait ht (htasks i t ht) hbusy, ?_⟩
  cases hd : p.dispatcher with
  | dispatching rest =>
      cases rest with
      | nil => simp [hd, Nat.not_lt.mpr hcount] at hdisp
      | cons c rest => exact .inr (h.exists_busy hpos (hfull c rest hd))
  | draining =>
      simp only [hd] at hdisp
      split at hdisp
      · cases hdisp
      · rename_i hover
        rw [allOver, Bool.not_eq_true, List.all_eq_false] at hover
        obtain ⟨t, hm, hbusy⟩ := hover
        obtain ⟨i, hi⟩ := List.mem_iff_getElem?.mp hm
        exact .inr ⟨i, t, hi, Bool.not_eq_true _ ▸ hbusy⟩
  | ended => exact .inl rfl
  | dead => exact absurd hd h.books.not_dead

/-- Time passes while everybody waits, but not beyond the end of a call. -/
theorem Paced.pass (h : Paced z now log p) (hrest : Resting now p) {time : Nat}
    (hle : now ≤ time)
    (hdue : ∀ (i : Nat) (t : Task) due, p.tasks[i]? = some t → t.stage = .calling due →
      time ≤ due) :
    Paced z time log p where
  workers := h.workers
  books := h.books
  slots := h.slots
  room := h.room
  listening := h.listening
  tasks i := (h.tasks i).later hle fun t ht hbusy => by
    obtain ⟨due, hst, _⟩ := hrest.calling i t ht hbusy
    exact ⟨due, hst, hdue i t due ht hst⟩
  greedy c rest hd := by
    have hgreedy := h.greedy c rest hd
    rw [hrest.full c rest hd] at hgreedy ⊢
    exact hgreedy
  begun := Nat.le_trans h.begun hle
  brief := by
    rcases hrest.busy with hd | ⟨i, t, ht, hbusy⟩
    · exact .inl hd
    · obtain ⟨due, hst, _⟩ := hrest.calling i t ht hbusy
      have htask := h.tasks i
      rw [ht] at htask
      obtain ⟨c, stage⟩ := t
      subst hst
      refine .inr (.inr ⟨i, (List.getElem?_eq_some_iff.mp ht).1, ?_⟩)
      exact Nat.le_trans (hdue i _ due ht rfl) htask.due_le
  closing := h.closing
  ordered := h.ordered
  past e he := Nat.le_trans (h.past e he) hle
  arrivals := h.arrivals
  sent := h.sent

/-- A pool is closed as soon as its dispatcher has ended. -/
theorem Paced.isClosed_iff (h : Paced z now log p) : p.isClosed ↔ p.dispatcher = .ended := by
  rw [isClosed, Bool.and_eq_true, Bool.or_eq_true, beq_iff_eq, beq_iff_eq]
  constructor
  · rintro ⟨hd | hd, _⟩
    · exact hd
    · exact absurd hd h.books.not_dead
  · exact fun hd => ⟨.inl hd, h.books.lastly hd⟩

/-- The stream is not open beyond the last removal. -/
theorem Paced.le_latest (h : Paced z now log p) (hopen : p.isClosed = false) :
    now ≤ z.latest := by
  have hd : p.dispatcher ≠ .ended := fun hd => by
    rw [h.isClosed_iff.mpr hd] at hopen
    cases hopen
  rcases h.brief.resolve_left hd with hnow | ⟨i, hi, hnow⟩
  · exact hnow ▸ z.start_le_latest
  · refine Nat.le_trans hnow (Roster.endsAt_le_latest ?_)
    exact (List.getElem?_eq_some_iff.mp (h.component (List.getElem?_eq_getElem hi))).1

/-- As long as the stream is open, there is something left to do. -/
theorem Paced.moves_pos (h : Paced z now log p) (hopen : p.isClosed = false) : 0 < p.moves := by
  rw [moves]
  cases hd : p.dispatcher with
  | dispatching rest => exact Nat.succ_pos _
  | draining => exact Nat.succ_pos _
  | ended =>
      rw [h.isClosed_iff.mpr hd] at hopen
      cases hopen
  | dead => exact absurd hd h.books.not_dead

/-- The stream is not closed before the last removal has ended. -/
theorem Paced.latest_le (h : Paced z now log p) (hc : p.isClosed) : z.latest ≤ now := by
  have hclosing := h.closing
  rw [if_pos (h.isClosed_iff.mp hc)] at hclosing
  have hm : (z.latest, Action.close) ∈ log.filter fun e => e.2 = .close := by
    rw [hclosing]
    exact List.mem_singleton_self _
  exact h.past _ (List.mem_filter.mp hm).1

/-! ## What a closed pool has done -/

/-- All that a closed pool has done is on the schedule of its roster. -/
structure OnSchedule (z : Roster) (log : List (Nat × Action)) : Prop where
  /-- The removal of each component starts when the first slot is free by the roster, and
  ends when its time has passed.  It is reported at once. -/
  removals : ∀ i c, z.components[i]? = some c → (log.filter fun e => e.2.isOf i) = z.taskOf i c
  /-- The reports arrive when the removals end. -/
  arrivals : (log.filterMap z.arrival?).Perm
    (z.components.mapIdx fun i c => (z.endsAt i, z.reportOn i c))
  ordered : (log.filterMap z.arrival?).Pairwise fun a b => a.1 ≤ b.1
  /-- The stream closes when the last removal ends. -/
  closed : log.filter (fun e => e.2 = .close) = [(z.latest, .close)]

theorem arrival?_time {e : Nat × Action} {x : Nat × Report} (h : z.arrival? e = some x) :
    x.1 = e.1 := by
  obtain ⟨time, a⟩ := e
  cases a with
  | report i =>
      obtain ⟨c, _, rfl⟩ := Option.map_eq_some_iff.mp h
      rfl
  | _ => cases h

theorem Paced.onSchedule (h : Paced z now log p) (hc : p.isClosed) : OnSchedule z log := by
  have hd := h.isClosed_iff.mp hc
  have hover := h.books.lastly hd
  rw [allOver, List.all_eq_true] at hover
  have hcount := h.length_eq (.inr hd)
  -- Every component has a task, which is over.
  have hall : ∀ i t, p.tasks[i]? = some t →
      t.stage = .reported (z.uninstaller.verdict i t.component) ∧
        (log.filter fun e => e.2.isOf i) = z.taskOf i t.component := by
    intro i t ht
    have htask := h.tasks i
    rw [ht] at htask
    exact (htask.over (hover t (List.mem_of_getElem? ht))).2
  refine ⟨?_, ?_, ?_, ?_⟩
  · intro i c hi
    have hlt := (List.getElem?_eq_some_iff.mp hi).1
    rw [← hcount] at hlt
    have ht := List.getElem?_eq_getElem hlt
    have hcomp := h.component ht
    rw [hi] at hcomp
    cases hcomp
    exact (hall i _ ht).2
  · have harrived := h.arrivals
    rw [gather_of_all (g := fun i c => (z.endsAt i, z.reportOn i c)) ?_,
      h.components_eq (.inr hd)] at harrived
    · simpa only [Nat.zero_add] using harrived
    · intro n t ht
      rw [Nat.zero_add, arrived, Task.report?_eq (hall n t ht).1]
      rfl
  · refine List.pairwise_filterMap.mpr (h.ordered.imp ?_)
    intro e f hle x hx y hy
    rw [arrival?_time hx, arrival?_time hy]
    exact hle
  · rw [h.closing, if_pos hd]

end Pool

end Decommission
