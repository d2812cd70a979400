import Decommission.Proofs.Events
import Decommission.Proofs.Pool.Step
import Decommission.Proofs.Stream

/-!
# The books of a pool

A pool that nobody dies in keeps its books (`Pool.Books`): the components that
were handed out and those that are left make up the list, unless the signal was
fired; and what was sent is what the tasks have reported.  What has happened to
the task at a position can be read off its stage (`Pool.traceAt`), so it is the
same for every order of actions (`Pool.traceAt_step`).

Once the stream is closed and the signal was not fired, every component of the
list has been removed or has failed (`Pool.Books.reported`).
-/

namespace Decommission

namespace Pool

/-- The report of a task that has sent it: the component was removed, or there was an error,
whose text is given. -/
def Task.report? (t : Task) : Option Report :=
  match t.stage with
  | .reported none => some ⟨t.component.name, t.component.space, .success, none⟩
  | .reported (some e) => some ⟨t.component.name, t.component.space, .error, some e.message⟩
  | _ => none

theorem Task.report?_eq {t : Task} {v : Verdict} (h : t.stage = .reported v) :
    t.report? = some (v.report t.component) := by
  rw [Task.report?, h]
  cases v with
  | _ => rfl

/-- What has happened to the task at a position. -/
def Task.trace (i : Nat) (t : Task) : List Event :=
  match t.stage with
  | .ready => []
  | .calling _ => [.removalStarted i t.component]
  | .returned v => [.removalStarted i t.component, .removalEnded i t.component v]
  | .reported v => [.removalStarted i t.component, .removalEnded i t.component v]
  | .dead => []

/-- What has happened to the task at a position, if there is one. -/
def traceAt (p : Pool) (i : Nat) : List Event :=
  match p.tasks[i]? with
  | some t => t.trace i
  | none => []

/-- The dispatcher has not handed out the components in `rest`. -/
def HasLeft (p : Pool) (fired : Bool) (rest : List Component) : Prop :=
  match p.dispatcher with
  | .dispatching left => left = rest
  | .draining | .ended => rest = [] ∨ fired = true
  | .dead => False

/-- The books of a pool that removes certain components. -/
structure Books (cs : List Component) (fired : Bool) (p : Pool) : Prop where
  countable : p.workers ≤ slotLimit
  handedOut : ∃ rest, p.tasks.map Task.component ++ rest = cs ∧ p.HasLeft fired rest
  lastly : p.dispatcher = .ended → p.allOver
  alive : ∀ t ∈ p.tasks, t.stage ≠ .dead
  sent : p.stream.listening → p.stream.sent.Perm (p.tasks.filterMap Task.report?)

variable {cs : List Component} {fired : Bool} {p p' : Pool} {a : Action}

theorem books_start {workers : Nat} (h : workers ≤ slotLimit) (cs : List Component)
    (fired : Bool) : (start workers cs).Books cs fired where
  countable := h
  handedOut := ⟨cs, rfl, rfl⟩
  lastly hd := nomatch hd
  alive _ ht := nomatch ht
  sent _ := .refl _

theorem Books.not_dead (h : p.Books cs fired) : p.dispatcher ≠ .dead := by
  intro hd
  obtain ⟨_, _, hleft⟩ := h.handedOut
  rw [HasLeft, hd] at hleft
  exact hleft

/-! ## Every action keeps the books -/

/-- A signal that is fired does not disturb the books. -/
theorem Books.fire (h : p.Books cs fired) : p.Books cs true := by
  obtain ⟨rest, hcs, hleft⟩ := h.handedOut
  refine ⟨h.countable, ⟨rest, hcs, ?_⟩, h.lastly, h.alive, h.sent⟩
  rw [HasLeft] at hleft ⊢
  split at hleft
  · exact hleft
  · exact Or.inr rfl
  · exact Or.inr rfl
  · exact hleft

/-- What a reader does to the stream does not disturb the books. -/
theorem Books.onStream (h : p.Books cs fired) {f : Stream → Stream}
    (hsent : (f p.stream).sent = p.stream.sent)
    (hlisten : (f p.stream).listening → p.stream.listening) :
    Books cs fired { p with stream := f p.stream } where
  countable := h.countable
  handedOut := h.handedOut
  lastly := h.lastly
  alive := h.alive
  sent hl := by
    show (f p.stream).sent.Perm _
    rw [hsent]
    exact h.sent (hlisten hl)

/-- Deaths included, every action leaves on the stream what the tasks have reported. -/
theorem sent_step (h : p.stream.listening → p.stream.sent.Perm (p.tasks.filterMap Task.report?))
    (hs : p.step fired a = some p') :
    p'.stream.listening → p'.stream.sent.Perm (p'.tasks.filterMap Task.report?) := by
  -- A task that has sent nothing and sends nothing counts for nothing.
  have hsilent : ∀ {before after : List Task} {t t' : Task}, p.tasks = before ++ t :: after →
      t.report? = none → t'.report? = none → p.stream.listening →
      p.stream.sent.Perm ((before ++ t' :: after).filterMap Task.report?) := by
    intro before after t t' ht hnone hnone' hl
    have hsent := h hl
    rw [ht] at hsent
    simpa [hnone, hnone'] using hsent
  intro hl
  cases step_cases hs with
  | collapse | heed | exhaust | close => exact h hl
  | dispatch c rest =>
      show p.stream.sent.Perm ((p.tasks ++ [(⟨c, .ready⟩ : Task)]).filterMap Task.report?)
      rw [List.filterMap_append]
      exact (h hl).trans (.of_eq (List.append_nil _).symm)
  | call before after c due ht => exact hsilent ht rfl rfl hl
  | conclude before after c due v ht => exact hsilent ht rfl rfl hl
  | report before after c v ht =>
      rw [Stream.listening_send] at hl
      have hsent := h hl
      rw [ht] at hsent
      simp only [List.filterMap_append, List.filterMap_cons,
        Task.report?_eq (t := ⟨c, .reported v⟩) rfl] at hsent ⊢
      rw [Stream.sent_send, if_pos hl]
      refine (hsent.append_right _).trans ?_
      rw [List.append_assoc]
      exact List.Perm.append_left _ List.perm_append_comm
  | die before after t ht hslot =>
      refine hsilent ht ?_ rfl hl
      obtain ⟨c, stage⟩ := t
      cases stage with
      | reported v => cases hslot
      | _ => rfl

/-- A task that gets on stays in its place, and the books stay right. -/
theorem Books.restage {before after : List Task} {t : Task} {s : Stage} {stream : Stream}
    (h : p.Books cs fired) (ht : p.tasks = before ++ t :: after) (hbusy : t.isOver = false)
    (hs : s ≠ .dead)
    (hsent : stream.listening →
      stream.sent.Perm ((before ++ ⟨t.component, s⟩ :: after).filterMap Task.report?)) :
    Books cs fired
      { p with tasks := before ++ ⟨t.component, s⟩ :: after, stream := stream } := by
  refine ⟨h.countable, ?_, ?_, ?_, hsent⟩
  · obtain ⟨rest, hcs, hleft⟩ := h.handedOut
    refine ⟨rest, ?_, hleft⟩
    rw [ht] at hcs
    simpa using hcs
  · intro hd
    have hover := h.lastly hd
    rw [allOver, ht] at hover
    simp [hbusy] at hover
  · intro t' ht'
    have halive := h.alive
    rw [ht] at halive
    rcases List.mem_append.mp ht' with hm | hm
    · exact halive t' (List.mem_append_left _ hm)
    · rcases List.mem_cons.mp hm with rfl | hm
      · exact hs
      · exact halive t' (List.mem_append_right _ (List.mem_cons_of_mem _ hm))

/-- As long as nobody dies, every action keeps the books. -/
theorem Books.step (h : p.Books cs fired) (hs : p.step fired a = some p') (ha : ¬ a.isDeath) :
    p'.Books cs fired := by
  obtain ⟨rest, hcs, hleft⟩ := id h.handedOut
  have hsent := sent_step h.sent hs
  cases step_cases hs with
  | collapse rest' hd hlt =>
      have hcount := h.countable
      omega
  | dispatch c rest' hd hw hf hfree =>
      rw [HasLeft, hd] at hleft
      subst hleft
      refine ⟨h.countable, ⟨rest', ?_, rfl⟩, (fun hd => nomatch hd), ?_, hsent⟩
      · rw [← hcs]
        simp
      · intro t ht
        rcases List.mem_append.mp ht with hm | hm
        · exact h.alive t hm
        · rw [List.mem_singleton.mp hm]
          exact fun hs => nomatch hs
  | heed c rest' hd hf =>
      exact ⟨h.countable, ⟨rest, hcs, Or.inr hf⟩, (fun hd => nomatch hd), h.alive, hsent⟩
  | exhaust hd =>
      rw [HasLeft, hd] at hleft
      exact ⟨h.countable, ⟨rest, hcs, Or.inl hleft.symm⟩, (fun hd => nomatch hd), h.alive, hsent⟩
  | close hd hover =>
      rw [HasLeft, hd] at hleft
      exact ⟨h.countable, ⟨rest, hcs, hleft⟩, fun _ => hover, h.alive, hsent⟩
  | call before after c due ht => exact h.restage ht rfl (fun hs => nomatch hs) hsent
  | conclude before after c due v ht => exact h.restage ht rfl (fun hs => nomatch hs) hsent
  | report before after c v ht => exact h.restage ht rfl (fun hs => nomatch hs) hsent
  | die => exact absurd rfl ha

/-- An action takes nothing off the stream, and the reader stays. -/
theorem stream_step (hs : p.step fired a = some p') :
    p'.stream.taken = p.stream.taken ∧ p'.stream.listening = p.stream.listening := by
  cases step_cases hs with
  | report => exact ⟨Stream.taken_send .., Stream.listening_send ..⟩
  | _ => exact ⟨rfl, rfl⟩

/-! ## What happens to each task -/

/-- A task in another stage leaves the other positions as they are. -/
theorem getElem?_split_ne {before after : List Task} {t t' : Task} {i : Nat}
    (h : i ≠ before.length) : (before ++ t :: after)[i]? = (before ++ t' :: after)[i]? := by
  rcases Nat.lt_or_ge i before.length with hlt | hge
  · rw [List.getElem?_append_left hlt, List.getElem?_append_left hlt]
  · obtain ⟨n, hn⟩ : ∃ n, i - before.length = n + 1 := ⟨i - before.length - 1, by omega⟩
    rw [List.getElem?_append_right hge, List.getElem?_append_right hge, hn,
      List.getElem?_cons_succ, List.getElem?_cons_succ]

theorem getElem?_split {before after : List Task} {t : Task} :
    (before ++ t :: after)[before.length]? = some t := by
  rw [List.getElem?_append_right (Nat.le_refl _), Nat.sub_self, List.getElem?_cons_zero]

/-- What has happened where every component was removed. -/
theorem traceAt_of_removed (h : p.tasks = cs.map fun c => ⟨c, .reported none⟩) (i : Nat) :
    p.traceAt i = match cs[i]? with
      | some c => [.removalStarted i c, .removalEnded i c none]
      | none => [] := by
  rw [traceAt, h, List.getElem?_map]
  cases cs[i]? with
  | none => rfl
  | some c => rfl

theorem traceAt_of_split {before after : List Task} {t : Task}
    (h : p.tasks = before ++ t :: after) : p.traceAt before.length = t.trace before.length := by
  rw [traceAt, h, getElem?_split]

/-- What an action shows of the removal at a position is what happens to the task
there. -/
theorem traceAt_step (u : Uninstaller) (hs : p.step fired a = some p') (ha : ¬ a.isDeath)
    (i : Nat) :
    p'.traceAt i = p.traceAt i ++ (p.events u fired a).filter (Event.isRemovalAt i) := by
  have hother : ∀ {before after : List Task} {t t' : Task}, p.tasks = before ++ t :: after →
      p'.tasks = before ++ t' :: after → i ≠ before.length → p'.traceAt i = p.traceAt i := by
    intro before after t t' ht ht' hi
    rw [traceAt, traceAt, ht, ht', getElem?_split_ne hi]
  have hquiet : ∀ ns : List Note, (ns.map Event.note).filter (Event.isRemovalAt i) = [] := by
    intro ns
    rw [List.filter_eq_nil_iff]
    intro e he
    obtain ⟨n, _, rfl⟩ := List.mem_map.mp he
    exact Bool.false_ne_true
  have hdrain : ∀ n, (if fired = true then [Event.note (.draining n)] else []).filter
      (Event.isRemovalAt i) = [] := by
    intro n
    split
    · rfl
    · rfl
  cases step_cases hs with
  | collapse => exact (List.append_nil _).symm
  | dispatch c rest hd =>
      refine Eq.trans ?_ (List.append_nil _).symm
      rw [traceAt, traceAt]
      rcases Nat.lt_trichotomy i p.tasks.length with hlt | rfl | hgt
      · rw [List.getElem?_append_left hlt]
      · rw [List.getElem?_concat_length, List.getElem?_eq_none (Nat.le_refl _)]
        rfl
      · rw [List.getElem?_eq_none (Nat.le_of_lt hgt), List.getElem?_eq_none]
        rw [List.length_append, List.length_singleton]
        exact hgt
  | heed c rest hd =>
      rw [events, hdrain, List.append_nil]
      rfl
  | exhaust hd =>
      rw [events, hdrain, List.append_nil]
      rfl
  | close => exact (List.append_nil _).symm
  | call before after c due ht =>
      rw [events, ht, getElem?_split]
      dsimp only
      rw [List.filter_append, hquiet, List.nil_append]
      by_cases hi : i = before.length
      · subst hi
        rw [traceAt_of_split ht, traceAt_of_split rfl]
        simp [Task.trace, Event.isRemovalAt]
      · rw [hother ht rfl hi]
        simp [Event.isRemovalAt, Ne.symm hi]
  | conclude before after c due v ht =>
      rw [events, ht, getElem?_split]
      dsimp only
      rw [List.filter_cons, hquiet]
      by_cases hi : i = before.length
      · subst hi
        rw [traceAt_of_split ht, traceAt_of_split rfl]
        simp [Task.trace, Event.isRemovalAt]
      · rw [hother ht rfl hi]
        simp [Event.isRemovalAt, Ne.symm hi]
  | report before after c v ht =>
      refine Eq.trans ?_ (List.append_nil _).symm
      by_cases hi : i = before.length
      · subst hi
        rw [traceAt_of_split ht, traceAt_of_split rfl]
        rfl
      · exact hother ht rfl hi
  | die => exact absurd rfl ha

/-- A pool tells nobody anything, leaves the signal as it is, and reaches nobody. -/
theorem quiet_events (u : Uninstaller) {e : Event} (h : e ∈ p.events u fired a) :
    e.isSilent ∧ e.reachesOut = false := by
  have hnotes : ∀ ns : List Note, e ∈ ns.map Event.note → e.isSilent ∧ e.reachesOut = false := by
    intro ns hm
    obtain ⟨n, _, rfl⟩ := List.mem_map.mp hm
    exact ⟨rfl, rfl⟩
  cases a with
  | heed | exhaust =>
      simp only [events] at h
      split at h
      · rw [List.mem_singleton.mp h]
        exact ⟨rfl, rfl⟩
      · cases h
  | call i due =>
      simp only [events] at h
      split at h
      · rcases List.mem_append.mp h with hm | hm
        · exact hnotes _ hm
        · rw [List.mem_singleton.mp hm]
          exact ⟨rfl, rfl⟩
      · cases h
  | conclude i v =>
      simp only [events] at h
      split at h
      · rcases List.mem_cons.mp h with rfl | hm
        · exact ⟨rfl, rfl⟩
        · exact hnotes _ hm
      · cases h
  | _ => cases h

/-! ## What is left in the end -/

/-- Once the stream of a pool is closed, every component that was handed out has been
reported. -/
theorem Books.all_reported (h : p.Books cs fired) (hc : p.isClosed) :
    ∀ t ∈ p.tasks, ∃ v, t.stage = .reported v := by
  rw [isClosed, Bool.and_eq_true, allOver, List.all_eq_true] at hc
  intro t ht
  have hdone := hc.2 t ht
  have halive := h.alive t ht
  obtain ⟨c, stage⟩ := t
  cases stage with
  | reported v => exact ⟨v, rfl⟩
  | dead => exact absurd rfl halive
  | _ => cases hdone

/-- If the signal was not fired either, every component of the list was handed out. -/
theorem Books.reported (h : p.Books cs false) (hc : p.isClosed) :
    p.tasks.map Task.component = cs ∧ ∀ t ∈ p.tasks, ∃ v, t.stage = .reported v := by
  refine ⟨?_, h.all_reported hc⟩
  rw [isClosed, Bool.and_eq_true, Bool.or_eq_true, beq_iff_eq, beq_iff_eq] at hc
  obtain ⟨rest, hcs, hleft⟩ := h.handedOut
  rw [HasLeft] at hleft
  rcases hc.1 with hd | hd
  · rw [hd] at hleft
    rcases hleft with rfl | hf
    · rw [← hcs, List.append_nil]
    · cases hf
  · rw [hd] at hleft
    cases hleft

/-- A report that is no failure is of a removal that went well. -/
theorem verdict_of_not_isError {c : Component} {v : Verdict}
    (h : ¬ (v.report c).isError) : v = none := by
  cases v with
  | none => rfl
  | some e => exact absurd rfl h

/-- If the reports were all taken and none is a failure, every component was
removed. -/
theorem Books.removed (h : p.Books cs false) (hc : p.isClosed) (hl : p.stream.listening)
    (hw : p.stream.waiting = []) (hgood : p.stream.taken.countP (·.status == .error) = 0) :
    p.tasks = cs.map (fun c => ⟨c, .reported none⟩) ∧
      p.stream.taken.Perm (cs.map fun c => ⟨c.name, c.space, .success, none⟩) := by
  obtain ⟨hcs, hall⟩ := h.reported hc
  have hsent := h.sent hl
  rw [Stream.sent, hw, List.append_nil] at hsent
  have hgood' : ∀ t ∈ p.tasks, t = ⟨t.component, .reported none⟩ := by
    intro t ht
    obtain ⟨v, hv⟩ := hall t ht
    have hm : v.report t.component ∈ p.stream.taken := by
      rw [hsent.mem_iff, List.mem_filterMap]
      exact ⟨t, ht, Task.report?_eq hv⟩
    have hnone := verdict_of_not_isError (List.countP_eq_zero.mp hgood _ hm)
    obtain ⟨c, stage⟩ := t
    simp only at hv
    rw [hv, hnone]
  have htasks : p.tasks = cs.map fun c => (⟨c, .reported none⟩ : Task) := by
    rw [← hcs, List.map_map]
    exact (List.map_id' _).symm.trans (List.map_congr_left hgood')
  refine ⟨htasks, ?_⟩
  rw [htasks, List.filterMap_map] at hsent
  have hmap : (Task.report? ∘ fun c : Component => (⟨c, .reported none⟩ : Task)) =
      some ∘ fun c => ⟨c.name, c.space, .success, none⟩ := rfl
  rw [hmap, List.filterMap_eq_map] at hsent
  exact hsent

end Pool

end Decommission
