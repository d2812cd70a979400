import Decommission.Proofs.Play
import Decommission.Proofs.Pool.Books

/-!
# Pools under any schedule

In a shift a pool works while its signal may be fired and its reader takes reports
off the stream or leaves.  The dispatcher, the tasks, the signal and the reader make
their moves in any order.  A call of the uninstaller ends when it likes and as it
likes.  The actions of the dispatcher and of the tasks are logged.

`Shift.Kept` is what every move preserves, the death of a task included.  Together
with the books of the pool, which nobody's death disturbs, it gives
`Shift.safe_play`: how many calls are under way, which components were handed out,
what each task has done, what was sent, and when the stream is closed.
-/

namespace Decommission

namespace Pool

/-- Whether a call of the uninstaller is under way. -/
def Task.isCalling (t : Task) : Bool :=
  match t.stage with
  | .calling _ => true
  | _ => false

/-- The number of calls under way. -/
def inProgress (p : Pool) : Nat := (p.tasks.filter Task.isCalling).length

/-- Whether the action is one of the task at a position. -/
def Action.isOf (i : Nat) : Action → Bool
  | call j _ | conclude j _ | report j | die j => j == i
  | _ => false

/-- What the task at a position has done, if there is one.  Without dying it makes one
call, which ends once, and sends one report. -/
inductive Did (i : Nat) : Option Task → List Action → Prop
  | nothing : Did i none []
  | ready (c : Component) : Did i (some ⟨c, .ready⟩) []
  | calling (c : Component) (due : Nat) : Did i (some ⟨c, .calling due⟩) [.call i due]
  | returned (c : Component) (due : Nat) (v : Verdict) :
      Did i (some ⟨c, .returned v⟩) [.call i due, .conclude i v]
  | reported (c : Component) (due : Nat) (v : Verdict) :
      Did i (some ⟨c, .reported v⟩) [.call i due, .conclude i v, .report i]
  | diedReady (c : Component) : Did i (some ⟨c, .dead⟩) [.die i]
  | diedCalling (c : Component) (due : Nat) : Did i (some ⟨c, .dead⟩) [.call i due, .die i]

variable {cs : List Component} {fired : Bool} {p p' : Pool} {a : Action} {log : List Action}

/-! ## What every action preserves -/

theorem frame_step (hs : p.step fired a = some p') :
    p'.workers = p.workers ∧ p'.stream.capacity = p.stream.capacity := by
  cases step_cases hs with
  | report before after c v => exact ⟨rfl, Stream.capacity_send ..⟩
  | _ => exact ⟨rfl, rfl⟩

/-- A task in another stage takes no slot that it did not hold. -/
theorem slots_replace {before after : List Task} {t t' : Task}
    (ht : p.tasks = before ++ t :: after) (hslot : t'.holdsSlot → t.holdsSlot) :
    ((before ++ t' :: after).filter Task.holdsSlot).length ≤
      (p.tasks.filter Task.holdsSlot).length := by
  rw [ht]
  cases hs : t'.holdsSlot with
  | true => simp [hs, hslot hs]
  | false =>
      have hfree : ¬ t'.holdsSlot := by rw [hs]; exact Bool.false_ne_true
      rw [List.filter_append, List.filter_append, List.length_append, List.length_append,
        List.filter_cons_of_neg hfree]
      exact Nat.add_le_add_left ((List.sublist_cons_self t after).filter _).length_le _

/-- A slot is taken only while one is free. -/
theorem slots_step (h : (p.tasks.filter Task.holdsSlot).length ≤ p.workers)
    (hs : p.step fired a = some p') : (p'.tasks.filter Task.holdsSlot).length ≤ p'.workers := by
  cases step_cases hs with
  | dispatch c rest hd hw hf hfree =>
      rw [free] at hfree
      show ((p.tasks ++ [(⟨c, .ready⟩ : Task)]).filter Task.holdsSlot).length ≤ p.workers
      rw [List.filter_append, List.length_append]
      show _ + 1 ≤ p.workers
      omega
  | call before after c due ht => exact Nat.le_trans (slots_replace ht fun _ => rfl) h
  | conclude before after c due v ht => exact Nat.le_trans (slots_replace ht nofun) h
  | report before after c v ht => exact Nat.le_trans (slots_replace ht nofun) h
  | die before after t ht hslot => exact Nat.le_trans (slots_replace ht fun _ => hslot) h
  | _ => exact h

/-- Every action brings the pool nearer to its end. -/
theorem moves_step (hs : p.step fired a = some p') : p'.moves < p.moves := by
  cases step_cases hs with
  | collapse rest hd => simp only [moves, hd]; omega
  | dispatch c rest hd =>
      simp only [moves, hd, total_append, total, Task.moves, List.length_cons]
      omega
  | heed c rest hd => simp only [moves, hd, List.length_cons]; omega
  | exhaust hd => simp only [moves, hd]; omega
  | close hd => simp only [moves, hd]; omega
  | call before after c due ht =>
      simp only [moves, ht, total_append, total, Task.moves]
      omega
  | conclude before after c due v ht =>
      simp only [moves, ht, total_append, total, Task.moves]
      omega
  | report before after c v ht =>
      simp only [moves, ht, total_append, total, Task.moves]
      omega
  | die before after t ht hslot =>
      have hbusy : 0 < t.moves := by
        rw [Task.holdsSlot] at hslot
        rw [Task.moves]
        split at hslot
        · rename_i hst
          rw [hst]
          exact Nat.zero_lt_succ _
        · rename_i hst
          rw [hst]
          exact Nat.zero_lt_succ _
        · cases hslot
      simp only [moves, ht, total_append, total]
      show _ + (0 + _) + _ < _
      omega

/-- The tasks are those of the first components, and the dispatcher has the others before
it. -/
def HasFront (cs : List Component) (p : Pool) : Prop :=
  ∃ rest, p.tasks.map Task.component ++ rest = cs ∧
    ∀ left, p.dispatcher = .dispatching left → left = rest

theorem front_step (h : p.HasFront cs) (hs : p.step fired a = some p') : p'.HasFront cs := by
  obtain ⟨rest, hcs, hleft⟩ := h
  cases step_cases hs with
  | dispatch c rest' hd =>
      refine ⟨rest', ?_, fun left hd' => ?_⟩
      · rw [← hcs, ← hleft _ hd]
        simp
      · cases hd'
        rfl
  | call before after c due ht => exact ⟨rest, by simpa [ht] using hcs, hleft⟩
  | conclude before after c due v ht => exact ⟨rest, by simpa [ht] using hcs, hleft⟩
  | report before after c v ht => exact ⟨rest, by simpa [ht] using hcs, hleft⟩
  | die before after t ht => exact ⟨rest, by simpa [ht] using hcs, hleft⟩
  | collapse | heed | exhaust | close => exact ⟨rest, hcs, fun left hd => nomatch hd⟩

/-- Handing a component out begins a task, and nothing else does. -/
theorem count_step (h : p.tasks.length = log.count .dispatch) (hs : p.step fired a = some p') :
    p'.tasks.length = (log ++ [a]).count .dispatch := by
  rw [List.count_append, ← h]
  cases step_cases hs with
  | dispatch => exact List.length_append
  | call before after c due ht => rw [ht]; simp
  | conclude before after c due v ht => rw [ht]; simp
  | report before after c v ht => rw [ht]; simp
  | die before after t ht => rw [ht]; simp
  | _ => rfl

/-! ## What each task has done

`R` relates a position, the task there, if there is one, and what is logged of it. -/

section Each

variable {ε : Type} {f : Nat → ε → Bool} {R : Nat → Option Task → List ε → Prop}
  {entries : List ε} {e : ε}

theorem filter_concat_of_not {q : ε → Bool} (h : q e = false) :
    (entries ++ [e]).filter q = entries.filter q := by
  rw [List.filter_append, List.filter_cons_of_neg (by rw [h]; exact Bool.false_ne_true),
    List.filter_nil, List.append_nil]

/-- What one task does does not concern the others. -/
theorem each_replaced {before after : List Task} {t t' : Task}
    (h : ∀ i, R i (before ++ t :: after)[i]? (entries.filter (f i)))
    (hof : ∀ i, f i e = (before.length == i))
    (hR : ∀ es, R before.length (some t) es → R before.length (some t') (es ++ [e])) (i : Nat) :
    R i (before ++ t' :: after)[i]? ((entries ++ [e]).filter (f i)) := by
  have hi := h i
  by_cases heq : i = before.length
  · subst heq
    rw [getElem?_split] at hi
    rw [List.filter_append, getElem?_split,
      List.filter_cons_of_pos (by rw [hof, beq_self_eq_true])]
    exact hR _ hi
  · rw [getElem?_split_ne heq] at hi
    rw [filter_concat_of_not (by rw [hof, beq_eq_false_iff_ne]; exact Ne.symm heq)]
    exact hi

/-- A task that has just begun has done nothing. -/
theorem each_appended {ts : List Task} {t : Task}
    (h : ∀ i, R i ts[i]? (entries.filter (f i))) (hof : ∀ i, f i e = false)
    (hR : ∀ es, R ts.length none es → R ts.length (some t) es) (i : Nat) :
    R i (ts ++ [t])[i]? ((entries ++ [e]).filter (f i)) := by
  have hi := h i
  rw [filter_concat_of_not (hof i)]
  rcases Nat.lt_trichotomy i ts.length with hlt | rfl | hgt
  · rw [List.getElem?_append_left hlt]
    exact hi
  · rw [List.getElem?_eq_none (Nat.le_refl _)] at hi
    rw [List.getElem?_concat_length]
    exact hR _ hi
  · rw [List.getElem?_eq_none (Nat.le_of_lt hgt)] at hi
    rw [List.getElem?_eq_none (by rw [List.length_append, List.length_singleton]; exact hgt)]
    exact hi

end Each

theorem did_step (h : ∀ i, Did i p.tasks[i]? (log.filter (Action.isOf i)))
    (hs : p.step fired a = some p') (i : Nat) :
    Did i p'.tasks[i]? ((log ++ [a]).filter (Action.isOf i)) := by
  cases step_cases hs with
  | collapse | heed | exhaust | close =>
      rw [filter_concat_of_not rfl]
      exact h i
  | dispatch c rest hd =>
      refine each_appended h (fun _ => rfl) ?_ i
      intro as has
      cases has
      exact .ready c
  | call before after c due ht =>
      refine each_replaced (ht ▸ h) (fun _ => rfl) ?_ i
      intro as has
      cases has
      exact .calling c due
  | conclude before after c due v ht =>
      refine each_replaced (ht ▸ h) (fun _ => rfl) ?_ i
      intro as has
      cases has
      exact .returned c due v
  | report before after c v ht =>
      refine each_replaced (ht ▸ h) (fun _ => rfl) ?_ i
      intro as has
      cases has
      exact .reported c _ v
  | die before after t ht hslot =>
      refine each_replaced (ht ▸ h) (fun _ => rfl) ?_ i
      intro as has
      cases has with
      | ready c => exact .diedReady c
      | calling c due => exact .diedCalling c due
      | returned | reported | diedReady | diedCalling => cases hslot

/-- Nothing is handed out behind a notice of the signal, after which the dispatcher has
stopped dispatching. -/
structure Heeded (log : List Action) (p : Pool) : Prop where
  stopped : .heed ∈ log → ∀ rest, p.dispatcher ≠ .dispatching rest
  silent : log.Pairwise fun a b => a = .heed → b ≠ .dispatch

theorem heeded_step (h : Heeded log p) (hs : p.step fired a = some p') :
    Heeded (log ++ [a]) p' := by
  -- Only an action that hands something out could break the order of the log.
  have hlog : a ≠ .dispatch → (log ++ [a]).Pairwise fun a b => a = .heed → b ≠ .dispatch :=
    fun ha => List.pairwise_append.mpr ⟨h.silent, List.pairwise_singleton .., fun x _ y hy _ =>
      List.mem_singleton.mp hy ▸ ha⟩
  have hold : a ≠ .heed → .heed ∈ log ++ [a] → .heed ∈ log := by
    intro ha hm
    rcases List.mem_append.mp hm with hm | hm
    · exact hm
    · exact absurd (List.mem_singleton.mp hm).symm ha
  cases step_cases hs with
  | dispatch c rest hd =>
      have hnone : .heed ∉ log := fun hm => h.stopped hm _ hd
      refine ⟨fun hm => absurd (hold (fun h => nomatch h) hm) hnone, ?_⟩
      refine List.pairwise_append.mpr ⟨h.silent, List.pairwise_singleton .., ?_⟩
      rintro x hx y _ rfl
      exact absurd hx hnone
  | call | conclude | report | die =>
      exact ⟨fun hm => h.stopped (hold (fun h => nomatch h) hm), hlog fun h => nomatch h⟩
  | collapse | heed | exhaust | close =>
      exact ⟨fun _ _ hd => (nomatch hd), hlog fun h => nomatch h⟩

/-! ## Shifts -/

/-- A pool at work, and whether its signal has been fired. -/
structure Shift where
  pool : Pool
  fired : Bool := false

namespace Shift

/-- What can happen in a shift. -/
inductive Move
  /-- The dispatcher or a task does something. -/
  | act (a : Action)
  | fire
  | receive
  | hangUp

/-- Whether the move is the death of a task. -/
def Move.isDeath : Move → Bool
  | act a => a.isDeath
  | _ => false

/-- The same shift with another stream. -/
def onStream (f : Stream → Stream) (s : Shift) : Shift :=
  { s with pool := { s.pool with stream := f s.pool.stream } }

/-- A move, if it is possible, and the action that it adds to the log. -/
def move? : Move → Shift → Option (List Action × Shift)
  | .act a, s => (s.pool.step s.fired a).map fun p => ([a], { s with pool := p })
  | .fire, s => some ([], { s with fired := true })
  | .receive, s => some ([], s.onStream Stream.receive)
  | .hangUp, s => some ([], s.onStream Stream.hangUp)

/-- The log of a pool that removes certain components, and the shift, after certain
moves. -/
def after (workers : Nat) (cs : List Component) (ms : List Move) : List Action × Shift :=
  play (recorded move?) ([], ⟨.start workers cs, false⟩) ms

variable {workers : Nat} {s s' : Shift} {as : List Action} {m : Move}

/-- What every move preserves, deaths included. -/
structure Kept (workers : Nat) (cs : List Component) (log : List Action) (s : Shift) : Prop where
  workers : s.pool.workers = workers
  capacity : s.pool.stream.capacity = max 1 cs.length
  slots : (s.pool.tasks.filter Task.holdsSlot).length ≤ s.pool.workers
  front : s.pool.HasFront cs
  counted : s.pool.tasks.length = log.count .dispatch
  did : ∀ i, Did i s.pool.tasks[i]? (log.filter (Action.isOf i))
  heeded : Heeded log s.pool
  sent : s.pool.stream.listening →
    s.pool.stream.sent.Perm (s.pool.tasks.filterMap Task.report?)
  brief : log.length + s.pool.moves ≤ 4 * cs.length + 2

theorem kept_start (workers : Nat) (cs : List Component) :
    Kept workers cs [] ⟨.start workers cs, false⟩ where
  workers := rfl
  capacity := rfl
  slots := Nat.zero_le _
  front := ⟨cs, rfl, fun _ hd => by cases hd; rfl⟩
  counted := rfl
  did _ := .nothing
  heeded := ⟨(fun hm => nomatch hm), .nil⟩
  sent _ := .refl _
  brief := by
    show 0 + (0 + (4 * cs.length + 2)) ≤ _
    omega

theorem Kept.onStream (h : Kept workers cs log s) {f : Stream → Stream}
    (hcapacity : (f s.pool.stream).capacity = s.pool.stream.capacity)
    (hsent : (f s.pool.stream).sent = s.pool.stream.sent)
    (hlisten : (f s.pool.stream).listening → s.pool.stream.listening) :
    Kept workers cs log (s.onStream f) where
  workers := h.workers
  capacity := hcapacity.trans h.capacity
  slots := h.slots
  front := h.front
  counted := h.counted
  did := h.did
  heeded := ⟨h.heeded.stopped, h.heeded.silent⟩
  sent hl := by
    show (f s.pool.stream).sent.Perm _
    rw [hsent]
    exact h.sent (hlisten hl)
  brief := h.brief

theorem Kept.act (h : Kept workers cs log s) (hs : s.pool.step s.fired a = some p') :
    Kept workers cs (log ++ [a]) { s with pool := p' } where
  workers := (frame_step hs).1.trans h.workers
  capacity := (frame_step hs).2.trans h.capacity
  slots := slots_step h.slots hs
  front := front_step h.front hs
  counted := count_step h.counted hs
  did := did_step h.did hs
  heeded := heeded_step h.heeded hs
  sent := sent_step h.sent hs
  brief := by
    have hless := moves_step hs
    have hbrief := h.brief
    rw [List.length_append, List.length_singleton]
    show log.length + 1 + p'.moves ≤ _
    omega

theorem kept_move? (h : Kept workers cs log s) (hm : s.move? m = some (as, s')) :
    Kept workers cs (log ++ as) s' := by
  cases m with
  | act a =>
      obtain ⟨p, hp, heq⟩ := Option.map_eq_some_iff.mp hm
      cases heq
      exact h.act hp
  | fire =>
      cases hm
      rw [List.append_nil]
      exact ⟨h.workers, h.capacity, h.slots, h.front, h.counted, h.did, h.heeded, h.sent, h.brief⟩
  | receive =>
      cases hm
      rw [List.append_nil]
      refine h.onStream (Stream.capacity_receive _) (Stream.sent_receive _) fun hl => ?_
      rw [Stream.listening_receive] at hl
      exact hl
  | hangUp =>
      cases hm
      rw [List.append_nil]
      exact h.onStream rfl (Stream.sent_hangUp _) fun hl => absurd hl Bool.false_ne_true

theorem kept_after (workers : Nat) (cs : List Component) (ms : List Move) :
    Kept workers cs (after workers cs ms).1 (after workers cs ms).2 := by
  refine play_induction (P := fun j : List Action × Shift => Kept workers cs j.1 j.2) ?_
    (kept_start workers cs) ms
  intro m j k hj hm
  obtain ⟨as, hm, has⟩ := recorded_eq_some_iff.mp hm
  rw [has]
  exact kept_move? hj hm

/-- No more components are handed out than there are. -/
theorem Kept.length_le (h : Kept workers cs log s) : s.pool.tasks.length ≤ cs.length := by
  obtain ⟨rest, hcs, _⟩ := h.front
  rw [← hcs, List.length_append, List.length_map]
  exact Nat.le_add_right ..

/-- As long as nobody dies, every move keeps the books. -/
theorem books_move? (h : s.pool.Books cs s.fired) (hm : s.move? m = some (as, s'))
    (hdeath : ¬ m.isDeath) : s'.pool.Books cs s'.fired := by
  cases m with
  | act a =>
      obtain ⟨p, hp, heq⟩ := Option.map_eq_some_iff.mp hm
      cases heq
      exact h.step hp hdeath
  | fire =>
      cases hm
      exact h.fire
  | receive =>
      cases hm
      exact h.onStream (Stream.sent_receive _) fun hl => by
        rw [Stream.listening_receive] at hl
        exact hl
  | hangUp =>
      cases hm
      exact h.onStream (Stream.sent_hangUp _) fun hl => absurd hl Bool.false_ne_true

/-! ## Somebody can always go on -/

/-- A task that has ended its call finds room on the stream. -/
theorem Kept.isReady (h : Kept workers cs log s) {before rest : List Task} {t : Task}
    (ht : s.pool.tasks = before ++ t :: rest) (hbusy : t.report? = none) :
    s.pool.stream.isReady := by
  rw [Stream.isReady]
  cases hl : s.pool.stream.listening with
  | false => rfl
  | true =>
      -- The tasks that have reported are fewer than the components.
      have hsent := (h.sent hl).length_eq
      have hlen := h.length_le
      have hbefore := List.length_filterMap_le Task.report? before
      have hrest := List.length_filterMap_le Task.report? rest
      have hcap := h.capacity
      rw [ht, List.filterMap_append, List.filterMap_cons_none hbusy, List.length_append,
        Stream.sent, List.length_append] at hsent
      rw [ht, List.length_append, List.length_cons] at hlen
      rw [Bool.not_true, Bool.false_or, decide_eq_true_eq, hcap]
      omega

/-- A task that is not over can do something. -/
theorem Kept.exists_own_action (h : Kept workers cs log s) {i : Nat} {t : Task}
    (ht : s.pool.tasks[i]? = some t) (hbusy : t.isOver = false) :
    ∃ a : Action, a.isOf i ∧ ¬ a.isDeath ∧ (s.pool.step s.fired a).isSome := by
  obtain ⟨c, stage⟩ := t
  cases stage with
  | ready =>
      refine ⟨.call i 0, beq_self_eq_true i, Bool.false_ne_true, ?_⟩
      rw [step, ht]
      rfl
  | calling due =>
      refine ⟨.conclude i none, beq_self_eq_true i, Bool.false_ne_true, ?_⟩
      rw [step, ht]
      rfl
  | returned v =>
      obtain ⟨before, rest, _, hsplit, _⟩ := setStage_eq ht (.reported v)
      refine ⟨.report i, beq_self_eq_true i, Bool.false_ne_true, ?_⟩
      simp only [step, ht]
      rw [if_pos (h.isReady hsplit rfl)]
      rfl
  | reported v => cases hbusy
  | dead => cases hbusy

/-- As long as the stream is not closed, somebody can do something. -/
theorem Kept.exists_action (h : Kept workers cs log s) (hb : s.pool.Books cs s.fired)
    (hw : 0 < workers) (hopen : s.pool.isClosed = false) :
    ∃ a : Action, ¬ a.isDeath ∧ (s.pool.step s.fired a).isSome := by
  have hcount := hb.countable
  -- A task that is not over can go on.
  have htask : ∀ {t}, t ∈ s.pool.tasks → t.isOver = false →
      ∃ a : Action, ¬ a.isDeath ∧ (s.pool.step s.fired a).isSome := by
    intro t ht hbusy
    obtain ⟨i, hi⟩ := List.mem_iff_getElem?.mp ht
    obtain ⟨a, _, hdeath, ha⟩ := h.exists_own_action hi hbusy
    exact ⟨a, hdeath, ha⟩
  have hbusy : s.pool.allOver = false → ∃ t ∈ s.pool.tasks, t.isOver = false := by
    intro hall
    rw [allOver, List.all_eq_false] at hall
    obtain ⟨t, ht, hover⟩ := hall
    exact ⟨t, ht, Bool.eq_false_iff.mpr hover⟩
  cases hd : s.pool.dispatcher with
  | dispatching rest =>
      cases rest with
      | nil =>
          refine ⟨.exhaust, Bool.false_ne_true, ?_⟩
          simp only [step, hd]
          rw [if_pos hcount]
          rfl
      | cons c rest =>
          by_cases hf : s.fired
          · refine ⟨.heed, Bool.false_ne_true, ?_⟩
            simp only [step, hd]
            rw [if_pos (by simp [hcount, hf])]
            rfl
          · by_cases hfree : 0 < s.pool.free
            · refine ⟨.dispatch, Bool.false_ne_true, ?_⟩
              simp only [step, hd]
              rw [if_pos (by simp [hcount, hf, hfree])]
              rfl
            · -- All slots are taken, so some task holds one.
              have hworkers := h.workers
              rw [free] at hfree
              obtain ⟨t, ht⟩ := List.exists_mem_of_length_pos
                (l := s.pool.tasks.filter Task.holdsSlot) (by omega)
              obtain ⟨hm, hslot⟩ := List.mem_filter.mp ht
              refine htask hm ?_
              obtain ⟨c, stage⟩ := t
              cases stage with
              | ready | calling => rfl
              | _ => cases hslot
  | draining =>
      cases hall : s.pool.allOver with
      | true =>
          refine ⟨.close, Bool.false_ne_true, ?_⟩
          simp only [step, hd]
          rw [if_pos hall]
          rfl
      | false =>
          obtain ⟨t, ht, hover⟩ := hbusy hall
          exact htask ht hover
  | ended =>
      rw [isClosed, hd] at hopen
      obtain ⟨t, ht, hover⟩ := hbusy (by simpa using hopen)
      exact htask ht hover
  | dead => exact absurd hd hb.not_dead

/-! ## What can be relied on -/

/-- What can be relied on in a shift whose log is given. -/
structure Safe (workers : Nat) (cs : List Component) (log : List Action) (s : Shift) : Prop where
  /-- There are no more calls under way than workers, and no more than components. -/
  bounded : s.pool.inProgress ≤ min workers cs.length
  /-- The components handed out are the front of the list, each handed out once. -/
  dispatched : s.pool.tasks.map Task.component = cs.take (log.count .dispatch) ∧
    s.pool.tasks.length = log.count .dispatch
  /-- Once the dispatcher has noticed the signal, it hands out nothing more. -/
  heeded : log.Pairwise fun a b => a = .heed → b ≠ .dispatch
  /-- The task of each component makes one call, which ends once, and sends one report
  of how it ended. -/
  did : ∀ i, Did i s.pool.tasks[i]? (log.filter (Action.isOf i))
  /-- Unless the reader has left, what was sent are the reports of the tasks, each sent
  once. -/
  sent : s.pool.stream.listening →
    s.pool.stream.sent.Perm (s.pool.tasks.filterMap Task.report?)
  /-- Nobody has to wait for the reader or for another task to make a call, end it and
  report on it. -/
  unhindered : ∀ i t, s.pool.tasks[i]? = some t → t.isOver = false →
    ∃ a : Action, a.isOf i ∧ ¬ a.isDeath ∧ (s.pool.step s.fired a).isSome
  /-- Somebody can go on until the stream is closed. -/
  onward : s.pool.isClosed = false →
    ∃ a : Action, ¬ a.isDeath ∧ (s.pool.step s.fired a).isSome
  /-- That takes a bounded number of actions. -/
  brief : log.length ≤ 4 * cs.length + 2
  /-- The stream is closed only when every component handed out has been reported, and
  these are all unless the signal was fired. -/
  closed : s.pool.isClosed → (∀ t ∈ s.pool.tasks, ∃ v, t.stage = .reported v) ∧
    (s.fired = false → s.pool.tasks.map Task.component = cs)

theorem inProgress_le (p : Pool) : p.inProgress ≤ (p.tasks.filter Task.holdsSlot).length := by
  rw [inProgress, ← List.countP_eq_length_filter, ← List.countP_eq_length_filter]
  refine List.countP_mono_left fun t _ hcalling => ?_
  obtain ⟨c, stage⟩ := t
  cases stage with
  | calling due => rfl
  | _ => cases hcalling

theorem Kept.safe (h : Kept workers cs log s) (hb : s.pool.Books cs s.fired)
    (hw : 0 < workers) : Safe workers cs log s := by
  refine ⟨?_, ⟨?_, h.counted⟩, h.heeded.silent, h.did, h.sent, ?_, h.exists_action hb hw, ?_, ?_⟩
  · refine Nat.le_min.mpr ⟨?_, Nat.le_trans (List.length_filter_le ..) h.length_le⟩
    rw [← h.workers]
    exact Nat.le_trans (inProgress_le _) h.slots
  · obtain ⟨rest, hcs, _⟩ := h.front
    rw [← h.counted, ← hcs, List.take_left' (List.length_map _)]
  · exact fun i t ht hbusy => h.exists_own_action ht hbusy
  · have hbrief := h.brief
    omega
  · exact fun hc => ⟨hb.all_reported hc, fun hf => (hf ▸ hb).reported hc |>.1⟩

/-- Whatever the order of moves of the dispatcher, the tasks and the reader, however
calls end and whenever the signal is fired: a pool keeps to its workers and to its
list, reports each component it hands out once, and closes its stream when all of them
have been reported. -/
theorem safe_play (workers : Nat) (cs : List Component) (hpos : 0 < workers)
    (hw : workers ≤ slotLimit) (ms : List Move) (hms : ∀ m ∈ ms, ¬ m.isDeath) :
    Safe workers cs (after workers cs ms).1 (after workers cs ms).2 := by
  refine (kept_after workers cs ms).safe ?_ hpos
  refine play_induction_mem (P := fun j : List Action × Shift => j.2.pool.Books cs j.2.fired) ?_
    (books_start hw cs false)
  intro m hm j k hj hk
  obtain ⟨as, hk, _⟩ := recorded_eq_some_iff.mp hk
  exact books_move? hj hk (hms m hm)

/-- Two workers, of three components, while the signal is fired during the first call.
The second call ends first. -/
def interrupted : List Move :=
  [.act .dispatch, .act (.call 0 7), .act .dispatch, .fire, .act .heed, .act (.call 1 3),
    .act (.conclude 1 none), .act (.report 1), .receive,
    .act (.conclude 0 (some (.command "gone"))), .act (.report 0), .act .close]

theorem safe_interrupted :
    let cs : List Component := [⟨"a", "x"⟩, ⟨"b", "x"⟩, ⟨"c", "x"⟩]
    let s := (after 2 cs interrupted).2
    s.pool.isClosed ∧ s.pool.stream.sent =
        [.removed "b" "x", .failed "a" "x" "command failed: gone"] ∧
      Safe 2 cs (after 2 cs interrupted).1 s := by
  intro cs s
  exact ⟨by decide +kernel, by decide +kernel,
    safe_play 2 cs (by decide) (by decide) interrupted (by decide)⟩

end Shift

end Pool

end Decommission
