import Decommission.Codec
import Decommission.Proofs.Settings.Spans

/-!
# Settings with some of their keys

Written settings may be cut down to some of their keys, and the policy inside them to
some of its own.  What is left is read as settings again: keys that are there have the
values that were written, and all others have their defaults, in the settings and in the
policy alike (`Config.ofDatum?_select`).

Each field is read on its own, so one lemma about one field (`default_select`) carries
both records.
-/

namespace Decommission

/-- Keys of settings, and keys of the policy inside them. -/
structure Keys where
  settings : String → Bool
  retry : String → Bool

/-- Every key. -/
def Keys.all : Keys := ⟨fun _ => true, fun _ => true⟩

namespace Datum

/-- A table cut down to certain keys. -/
def only (keep : String → Bool) : Datum → Datum
  | table es => table (es.filter fun e => keep e.1)
  | d => d

/-- Written settings cut down to certain keys. -/
def select (keys : Keys) : Datum → Datum
  | table es =>
      only keys.settings (table (es.map fun e =>
        if e.1 = "retry" then (e.1, e.2.only keys.retry) else e))
  | d => d

end Datum

/-- A policy with certain fields of one policy, and the others of another. -/
def RetryPolicy.select (keep : String → Bool) (p given : RetryPolicy) : RetryPolicy where
  attempts := if keep "attempts" then p.attempts else given.attempts
  attempts_lt := by
    split
    · exact p.attempts_lt
    · exact given.attempts_lt
  delay := if keep "delay" then p.delay else given.delay
  backoff := if keep "backoff" then p.backoff else given.backoff
  maxDelay := if keep "max_delay" then p.maxDelay else given.maxDelay

/-- Settings with certain fields of some settings, and the others of other settings. -/
def Config.select (keys : Keys) (c given : Config) : Config where
  cancelTimeout := if keys.settings "cancel_timeout" then c.cancelTimeout else given.cancelTimeout
  quitTimeout := if keys.settings "quit_timeout" then c.quitTimeout else given.quitTimeout
  workers := if keys.settings "workers" then c.workers else given.workers
  workers_lt := by
    split
    · exact c.workers_lt
    · exact given.workers_lt
  systemNamespace :=
    if keys.settings "system_namespace" then c.systemNamespace else given.systemNamespace
  legacyNamespace :=
    if keys.settings "legacy_namespace" then c.legacyNamespace else given.legacyNamespace
  retry :=
    if keys.settings "retry" then c.retry.select keys.retry .standard else given.retry

/-! ## Entries that are left -/

namespace Datum

variable {keep : String → Bool} {name : String}

/-- An entry is found among those that are left if its name is kept. -/
theorem lookup_filter (es : List (String × Datum)) :
    entry? name (es.filter fun e => keep e.1) = if keep name then entry? name es else none := by
  induction es with
  | nil => exact (ite_self _).symm
  | cons e es ih =>
      rw [List.filter_cons, entry?]
      by_cases hname : e.1 = name
      · subst hname
        by_cases hkeep : keep e.1
        · rw [if_pos hkeep, if_pos hkeep, entry?, if_pos rfl, if_pos rfl]
        · rw [if_neg hkeep, if_neg hkeep, ih, if_neg hkeep]
      · rw [if_neg hname]
        by_cases hkeep : keep e.1
        · rw [if_pos hkeep, entry?, if_neg hname]
          exact ih
        · rw [if_neg hkeep]
          exact ih

/-- Cutting the policy down leaves the other entries as they are. -/
theorem lookup_map_retry (es : List (String × Datum)) :
    entry? name (es.map fun e => if e.1 = "retry" then (e.1, e.2.only keep) else e) =
      ( entry? name es).map fun d => if name = "retry" then d.only keep else d := by
  induction es with
  | nil => rfl
  | cons e es ih =>
      rw [List.map_cons, entry?, entry?]
      by_cases hname : e.1 = name
      · subst hname
        by_cases hretry : e.1 = "retry"
        · rw [if_pos hretry, if_pos rfl, if_pos rfl, Option.map_some, if_pos hretry]
        · rw [if_neg hretry, if_pos rfl, if_pos rfl, Option.map_some, if_neg hretry]
      · rw [if_neg hname, ← ih]
        by_cases hretry : e.1 = "retry"
        · rw [if_pos hretry, if_neg hname]
        · rw [if_neg hretry, if_neg hname]

/-- What is found in a table that was cut down. -/
theorem entries?_only (l : Dialect) (fields : List String) (es : List (String × Datum)) :
    ((table es).only keep).entries? l fields =
      some ⟨fun name => if keep name then entry? name es else none, false⟩ := by
  rw [only, entries?]
  simp only [lookup_filter]

/-- What is found in written settings that were cut down. -/
theorem entries?_select (l : Dialect) (fields : List String) (keys : Keys)
    (es : List (String × Datum)) :
    ((table es).select keys).entries? l fields =
      some ⟨fun name => if keys.settings name then
        ( entry? name es).map fun d => if name = "retry" then d.only keys.retry else d
        else none, false⟩ := by
  rw [select, entries?_only]
  simp only [lookup_map_retry]

end Datum

/-- A field that is left has the value that is read, and any other has its default. -/
theorem default_select {α : Type} {es : Entries} {name : String} {item? : Datum → Option α}
    {kept : Bool} {d : Datum} {a : α} (hget : es.get? name = if kept then some d else none)
    (hread : item? d = some a) (value : α) :
    es.default name item? value = some (if kept then a else value) := by
  rw [Entries.default, hget]
  cases kept with
  | false => rfl
  | true => exact hread

/-! ## Nothing left out -/

theorem Datum.only_all (d : Datum) : d.only (fun _ => true) = d := by
  cases d with
  | table es => rw [only, List.filter_eq_self.mpr fun _ _ => rfl]
  | _ => rfl

theorem Datum.select_all (d : Datum) : d.select .all = d := by
  cases d with
  | table es =>
      have hsame : (fun e : String × Datum =>
          if e.1 = "retry" then (e.1, e.2.only Keys.all.retry) else e) = id := by
        funext e
        split
        · exact Prod.ext rfl (only_all e.2)
        · rfl
      rw [select, hsame, List.map_id]
      exact only_all _
  | _ => rfl

theorem Config.select_all (c given : Config) : c.select .all given = c := rfl

/-! ## Fields -/

theorem below?_whole {bound n : Nat} (h : n < bound) :
    Datum.below? bound (.whole n) = some ⟨n, h⟩ := by
  have hn : (0 : Int) ≤ n ∧ (n : Int).toNat < bound := ⟨Int.natCast_nonneg n, h⟩
  rw [Datum.below?, dif_pos hn]
  rfl

theorem Duration.ofDatum?_toDatum (d : Duration) : Duration.ofDatum? d.toDatum = some d :=
  d.ofSpan?_span

theorem Backoff.ofDatum?_toDatum (l : Dialect) (b : Backoff) :
    Backoff.ofDatum? l b.toDatum = some b := by
  cases b with
  | _ => rfl

theorem nullable?_ofOption (m : Option Duration) :
    Datum.nullable? Duration.ofDatum? (Datum.ofOption Duration.toDatum m) = some m := by
  cases m with
  | none => rfl
  | some d =>
      show (Duration.ofDatum? d.toDatum).map some = some (some d)
      rw [d.ofDatum?_toDatum]
      rfl

/-! ## Records -/

/-- A policy is read from those of its keys that are left. -/
theorem RetryPolicy.ofDatum?_only (l : Dialect) (keep : String → Bool) (p : RetryPolicy) :
    RetryPolicy.ofDatum? l (p.toDatum.only keep) = some (p.select keep .standard) := by
  rw [RetryPolicy.ofDatum?, RetryPolicy.toDatum, Datum.entries?_only]
  simp only [Option.bind_eq_bind, Option.bind_some]
  rw [default_select rfl (below?_whole p.attempts_lt), Option.bind_some,
    default_select rfl p.delay.ofDatum?_toDatum, Option.bind_some,
    default_select rfl (p.backoff.ofDatum?_toDatum l), Option.bind_some,
    default_select rfl (nullable?_ofOption p.maxDelay), Option.bind_some]
  simp only [apply_ite Subtype.val]
  rfl

/-- Settings are read from those of their keys that are left. -/
theorem Config.ofDatum?_select (l : Dialect) (keys : Keys) (c : Config) :
    Config.ofDatum? l (c.toDatum.select keys) = some (c.select keys .standard) := by
  have htext : ∀ s : String, (Datum.text s).text? = some s := fun _ => rfl
  rw [Config.ofDatum?, Config.toDatum, Datum.entries?_select]
  simp only [Option.bind_eq_bind, Option.bind_some]
  rw [default_select rfl c.cancelTimeout.ofDatum?_toDatum, Option.bind_some,
    default_select rfl c.quitTimeout.ofDatum?_toDatum, Option.bind_some,
    default_select rfl (below?_whole c.workers_lt), Option.bind_some,
    default_select rfl (htext c.systemNamespace), Option.bind_some,
    default_select rfl (htext c.legacyNamespace), Option.bind_some,
    default_select rfl (RetryPolicy.ofDatum?_only l keys.retry c.retry), Option.bind_some]
  simp only [apply_ite Subtype.val]
  rfl

/-- Written settings that are cut down to any of their keys are read again: what is left
has the values that were written, and all else its defaults.  With all keys left, the
settings are the same. -/
theorem Config.recovered_select (l : Dialect) (keys : Keys) (c : Config) :
    Config.ofDatum? l (c.toDatum.select keys) = some (c.select keys .standard) ∧
      Config.ofDatum? l c.toDatum = some c := by
  refine ⟨c.ofDatum?_select l keys, ?_⟩
  have hall := c.ofDatum?_select l .all
  rw [Datum.select_all, Config.select_all] at hall
  exact hall

end Decommission
