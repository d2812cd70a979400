import Decommission.Proofs.Teardown.Ledger

/-!
# The account of one namespace

The postings of one place, in order, are its account.  An account begins with
listings.  It ends with one that shows running pods or fails, or goes on with
the errands of a worker: finalizers, one deletion, and at last the worker is
over.

`Account` relates what has been posted to how the place stands.  A listing, an
errand or the end of a worker each continue it (`Account.look`, `Account.errand`,
`Account.join`).
-/

namespace Decommission

/-- How a place in the list of namespaces stands. -/
inductive Standing
  /-- It is not known yet what becomes of it. -/
  | pending
  /-- It is left alone. -/
  | left
  /-- It is handed over to a worker, and this is left to the worker. -/
  | employed (w : Worker)
  /-- Its worker was over when the coordinator came for it. -/
  | dismissed (w : Worker)

namespace Posting

variable {space : String} {p : Posting}

/-- What was done decides the calls and the failures. -/
structure Booked (space : String) (p : Posting) : Prop where
  calls : callsIn p.events = p.deed.calls space
  failures : p.failures = p.deed.failures space

/-- A listing after which the namespace is not handed over and not given up. -/
def IsLook (space : String) (p : Posting) : Prop :=
  (∃ answer, p.deed = .listed answer ∧ ¬ Teardown.isFree answer) ∧ p.Booked space

/-- A listing that shows no running pods. -/
def IsFree (space : String) (p : Posting) : Prop :=
  (∃ pods, p.deed = .listed (.ok pods) ∧ Teardown.countRunning pods = 0) ∧ p.Booked space

/-- An errand that is about finalizers. -/
def IsClearing (space : String) (p : Posting) : Prop := p.deed.isClearing ∧ p.Booked space

/-- A deletion that was answered. -/
def IsDeletion (space : String) (answer : Deleted) (p : Posting) : Prop :=
  p.deed = .deleted answer ∧ p.Booked space

/-! ## Which postings hand over -/

theorem IsFree.isHandOver (h : p.IsFree space) : p.isHandOver := by
  obtain ⟨⟨pods, hd, hr⟩, _⟩ := h
  rw [Posting.isHandOver, hd]
  exact beq_iff_eq.mpr hr

theorem IsLook.not_isHandOver (h : p.IsLook space) :
    ¬ p.isHandOver := by
  obtain ⟨⟨answer, hd, hr⟩, _⟩ := h
  rw [Posting.isHandOver, hd]
  exact hr

theorem not_isHandOver_of_joined {died : Bool} (h : p.deed = .joined died) :
    ¬ p.isHandOver := by
  rw [Posting.isHandOver, h]
  exact Bool.false_ne_true

theorem not_isHandOver_of_deed? {κ : Type} [Cluster κ] {w : Worker} {k : κ}
    (h : w.deed? k = some p.deed) : ¬ p.isHandOver := by
  have hne : ∀ answer, p.deed ≠ .listed answer := by
    intro answer ha
    rw [Worker.deed?, ha] at h
    split at h <;> cases h
  rw [Posting.isHandOver]
  split
  · exact absurd ‹_› (hne _)
  · exact Bool.false_ne_true

end Posting

/-- The account of a place with a certain namespace. -/
inductive Account (space : String) : List Posting → Standing → Prop
  | pending (looks : List Posting) : (∀ p ∈ looks, p.IsLook space) → Account space looks .pending
  | running (looks : List Posting) (last : Posting) (pods : List Pod) :
      (∀ p ∈ looks, p.IsLook space) → last.deed = .listed (.ok pods) →
      Teardown.countRunning pods ≠ 0 → last.Booked space → Account space (looks ++ [last]) .left
  | unreachable (looks : List Posting) (last : Posting) (e : ClusterError) :
      (∀ p ∈ looks, p.IsLook space) → last.deed = .listed (.error e) →
      callsIn last.events = [.listPods space] →
      last.failures = [⟨space, .precheck, e.message⟩] → Account space (looks ++ [last]) .left
  | busy (looks clearing : List Posting) (last : Posting) (w : Worker) (errands : List Errand) :
      (∀ p ∈ looks, p.IsLook space) → last.IsFree space → (∀ p ∈ clearing, p.IsClearing space) →
      w.space = space → w.errands = errands ++ [.delete] → .delete ∉ errands → w.died = false →
      Account space (looks ++ last :: clearing) (.employed w)
  | ended (looks clearing : List Posting) (last deletion : Posting) (answer : Deleted)
      (w : Worker) :
      (∀ p ∈ looks, p.IsLook space) → last.IsFree space → (∀ p ∈ clearing, p.IsClearing space) →
      deletion.IsDeletion space answer →
      w.space = space → w.errands = [] → w.died = (answer == .fatal) →
      Account space (looks ++ last :: (clearing ++ [deletion])) (.employed w)
  | dismissed (looks clearing : List Posting) (last deletion joining : Posting)
      (answer : Deleted) (w : Worker) :
      (∀ p ∈ looks, p.IsLook space) → last.IsFree space → (∀ p ∈ clearing, p.IsClearing space) →
      deletion.IsDeletion space answer → joining.deed = .joined (answer == .fatal) →
      joining.Booked space → w.errands = [] →
      Account space (looks ++ last :: (clearing ++ [deletion, joining])) (.dismissed w)

namespace Account

variable {space : String} {ps : List Posting} {p : Posting} {w : Worker}

/-! ## Listings -/

theorem looks (h : Account space ps .pending) : ∀ p ∈ ps, p.IsLook space := by
  cases h with
  | pending _ hl => exact hl

theorem look (h : Account space ps .pending) (hp : p.IsLook space) :
    Account space (ps ++ [p]) .pending := by
  refine .pending _ fun q hq => ?_
  rcases List.mem_append.mp hq with hm | hm
  · exact h.looks q hm
  · rw [List.mem_singleton.mp hm]
    exact hp

theorem handOver (h : Account space ps .pending) (hp : p.IsFree space) (targets : List Target) :
    Account space (ps ++ [p]) (.employed (.start space targets)) := by
  refine .busy ps [] p _ (targets.map .fetch) h.looks hp (fun _ hq => nomatch hq) rfl rfl ?_ rfl
  intro hm
  obtain ⟨_, _, hd⟩ := List.mem_map.mp hm
  cases hd

/-! ## Errands -/

/-- Before the deletion, an errand is about finalizers, and the deletion is still
the last one. -/
theorem busy_after {κ : Type} [Cluster κ] {k : κ} {e : Errand} {rest : List Errand} {d : Deed}
    (he : w.errands = e :: rest ++ [.delete]) (hdel : .delete ∉ e :: rest)
    (hd : w.deed? k = some d) :
    d.isClearing ∧ (w.after d).space = w.space ∧ (w.after d).died = w.died ∧
      ∃ errands, (w.after d).errands = errands ++ [.delete] ∧ .delete ∉ errands := by
  have htail : w.errands.tail = rest ++ [.delete] := by rw [he]; rfl
  have hrest : .delete ∉ rest := fun hm => hdel (List.mem_cons_of_mem _ hm)
  rw [Worker.deed?, he] at hd
  cases e with
  | fetch target =>
      cases hd
      cases w.fetchFrom target k with
      | mk answer _ _ => cases answer with
        | error _ => exact ⟨rfl, rfl, rfl, rest, htail, hrest⟩
        | ok rs =>
            refine ⟨rfl, rfl, rfl, Worker.clearing target.kind rs ++ rest, ?_, ?_⟩
            · rw [List.append_assoc, ← htail]
              rfl
            · rw [List.mem_append]
              rintro (hm | hm)
              · obtain ⟨_, _, hc⟩ := List.mem_map.mp hm
                cases hc
              · exact hrest hm
  | clear kind x =>
      cases hd
      exact ⟨rfl, rfl, rfl, rest, htail, hrest⟩
  | delete => exact absurd (List.mem_cons_self ..) hdel

/-- The deletion is the last errand. -/
theorem over_after {κ : Type} [Cluster κ] {k : κ} {d : Deed} (he : w.errands = [.delete])
    (hdied : w.died = false) (hd : w.deed? k = some d) :
    ∃ answer, d = .deleted answer ∧ (w.after d).space = w.space ∧ (w.after d).errands = [] ∧
      (w.after d).died = (answer == .fatal) := by
  have htail : w.errands.tail = [] := by rw [he]; rfl
  rw [Worker.deed?, he] at hd
  cases hd
  refine ⟨_, rfl, ?_⟩
  cases (Cluster.deleteSpace w.space k).answer with
  | fatal => exact ⟨rfl, rfl, rfl⟩
  | done => exact ⟨rfl, htail, hdied⟩
  | failed e => exact ⟨rfl, htail, hdied⟩

theorem space_employed (h : Account space ps (.employed w)) : w.space = space := by
  cases h with
  | busy | ended => assumption

theorem errand {κ : Type} [Cluster κ] {k : κ} (h : Account space ps (.employed w))
    (hw : w.errands ≠ []) (hd : w.deed? k = some p.deed) (hp : p.Booked space) :
    Account space (ps ++ [p]) (.employed (w.after p.deed)) := by
  cases h with
  | busy looks clearing last _ errands hl hf hc hs he hdel hdied =>
      rw [List.append_assoc, List.cons_append]
      cases errands with
      | nil =>
          obtain ⟨answer, ha, hspace, herr, hdied'⟩ := over_after he hdied hd
          exact .ended looks clearing last p answer _ hl hf hc ⟨ha, hp⟩ (hspace.trans hs) herr
            hdied'
      | cons e rest =>
          obtain ⟨hclear, hspace, hdied', errands', herr, hdel'⟩ := busy_after he hdel hd
          refine .busy looks _ last _ errands' hl hf ?_ (hspace.trans hs) herr hdel'
            (hdied'.trans hdied)
          intro q hq
          rcases List.mem_append.mp hq with hm | hm
          · exact hc q hm
          · rw [List.mem_singleton.mp hm]
            exact ⟨hclear, hp⟩
  | ended => exact absurd ‹w.errands = []› hw

/-! ## The end of a worker -/

theorem join (h : Account space ps (.employed w)) (hover : w.isOver)
    (hd : p.deed = .joined w.died) (hp : p.Booked space) :
    Account space (ps ++ [p]) (.dismissed w) := by
  have herr : w.errands = [] := List.isEmpty_iff.mp hover
  cases h with
  | busy looks clearing last _ errands hl hf hc hs he =>
      rw [he] at herr
      simp at herr
  | ended looks clearing last deletion answer _ hl hf hc hdel hs _ hdied =>
      rw [List.append_assoc, List.cons_append, List.append_assoc]
      rw [hdied] at hd
      exact .dismissed looks clearing last deletion p answer w hl hf hc hdel hd hp herr

theorem isOver_of_dismissed (h : Account space ps (.dismissed w)) : w.isOver := by
  cases h with
  | dismissed => exact List.isEmpty_iff.mpr ‹w.errands = []›

end Account

end Decommission
