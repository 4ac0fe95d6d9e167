import Mathlib.Data.List.Nodup
import Mathlib.Data.List.TakeWhile
import PageRender.Pass.Dispatch

/-!
# Logs of a walk

What happens to the units of the nodes while they are run, and what can be read off a log of it: the
bookkeeping, the part before the first fault, and the stages that one unit has gone through.
-/

namespace PageRender

/-- What a log says of the unit of a node. -/
inductive LogEntry
  | dispatched (node : Nat)
  | started (node : Nat)
  | succeeded (node : Nat)
  /-- A fault has been recorded on account of the node. -/
  | failed (node : Nat) (fault : Fault)
  | crashed (node : Nat)
  | joined (node : Nat)
deriving DecidableEq

namespace LogEntry

def node : LogEntry → Nat
  | dispatched i | started i | succeeded i | failed i _ | crashed i | joined i => i

def dispatch? : LogEntry → Option Nat
  | dispatched i => some i
  | _ => none

def success? : LogEntry → Option Nat
  | succeeded i => some i
  | _ => none

def fault? : LogEntry → Option Fault
  | failed _ f => some f
  | _ => none

end LogEntry

/-- The bookkeeping that a log amounts to. -/
def Walk.ofLog (log : List LogEntry) : Walk where
  scheduled := log.filterMap LogEntry.dispatch?
  completed := log.filterMap LogEntry.success?
  fault := log.findSome? LogEntry.fault?

namespace Walk

variable {w : Walk} {t : RenderTree} {i : Nat}

lemma complete_of_some {f : Fault} (h : w.fault = some f) :
    w.complete t i = ({ w with completed := w.completed ++ [i] }, []) := by
  simp [complete, h]

lemma complete_of_none (h : w.fault = none) : w.complete t i =
    ({ w with
      completed := w.completed ++ [i]
      scheduled := w.scheduled ++ t.renderable i (w.completed ++ [i]) w.scheduled },
      t.renderable i (w.completed ++ [i]) w.scheduled) := by
  simp [complete, h]

end Walk

/-- The log up to the first fault. -/
def sound (log : List LogEntry) : List LogEntry :=
  log.takeWhile fun e => e.fault?.isNone

open List

variable {σ τ : Type} {log es : List LogEntry} {i p c : Nat}

/-! ### Parts of a log -/

lemma pair_sublist_append {α : Type} {a b : α} {l l' : List α} :
    [a, b] <+ l ++ l' ↔ [a, b] <+ l ∨ (a ∈ l ∧ b ∈ l') ∨ [a, b] <+ l' := by
  constructor
  · intro h
    obtain ⟨l₁, l₂, heq, h₁, h₂⟩ := sublist_append_iff.mp h
    rcases cons_eq_append_iff.mp heq with ⟨rfl, rfl⟩ | ⟨k, rfl, hk⟩
    · exact Or.inr (Or.inr h₂)
    · rcases cons_eq_append_iff.mp hk with ⟨rfl, rfl⟩ | ⟨k', rfl, hk'⟩
      · exact Or.inr (Or.inl ⟨singleton_sublist.mp h₁, singleton_sublist.mp h₂⟩)
      · obtain ⟨rfl, rfl⟩ := nil_eq_append_iff.mp hk'
        exact Or.inl h₁
  · rintro (h | ⟨ha, hb⟩ | h)
    · exact h.trans (sublist_append_left l l')
    · exact (singleton_sublist.mpr ha).append (singleton_sublist.mpr hb)
    · exact h.trans (sublist_append_right l l')

/-- Two entries of a list without repetition stand in one order only. -/
lemma not_pair_sublist_swap {α : Type} {a b : α} {l : List α} (hl : l.Nodup) (h : [a, b] <+ l) :
    ¬[b, a] <+ l := by
  induction l with
  | nil => cases h
  | cons x l ih =>
    rw [nodup_cons] at hl
    intro h'
    cases h with
    | cons _ h =>
      cases h' with
      | cons _ h' => exact ih hl.2 h h'
      | cons_cons _ h' => exact hl.1 (h.subset (by simp))
    | cons_cons _ h =>
      cases h' with
      | cons _ h' => exact hl.1 (h'.subset (by simp))
      | cons_cons _ h' => exact hl.1 (singleton_sublist.mp h')

/-- In a list without repetition, what stands before an entry is what makes a pair with it. -/
lemma mem_takeWhile_ne_iff {α : Type} [DecidableEq α] {a b : α} {l : List α} (hl : l.Nodup)
    (hb : b ∈ l) : a ∈ l.takeWhile (· ≠ b) ↔ [a, b] <+ l := by
  obtain ⟨before, after, rfl⟩ := append_of_mem hb
  obtain ⟨-, hafter, hdisjoint⟩ := nodup_append.mp hl
  have hbefore : b ∉ before := fun h => hdisjoint b h b mem_cons_self rfl
  have htake : (before ++ b :: after).takeWhile (· ≠ b) = before := by
    rw [takeWhile_append_of_pos fun x hx => decide_eq_true (ne_of_mem_of_not_mem hx hbefore)]
    simp
  rw [htake, pair_sublist_append]
  constructor
  · exact fun ha => Or.inr (Or.inl ⟨ha, mem_cons_self⟩)
  · rintro (h | ⟨ha, -⟩ | h)
    · exact absurd (h.subset (by simp)) hbefore
    · exact ha
    · -- after the entry it does not come again
      refine absurd ?_ (nodup_cons.mp hafter).1
      cases h with
      | cons _ h => exact h.subset (by simp)
      | cons_cons _ h => exact singleton_sublist.mp h

lemma findSome?_fault_eq_none_iff :
    log.findSome? LogEntry.fault? = none ↔ ∀ i f, .failed i f ∉ log := by
  rw [findSome?_eq_none_iff]
  constructor
  · intro h i f hf
    cases h _ hf
  · intro h e he
    cases e with
    | failed i f => exact absurd he (h i f)
    | _ => rfl

/-- The first fault of a log comes with the first failure. -/
lemma findSome?_fault_eq_some_iff {f : Fault} : log.findSome? LogEntry.fault? = some f ↔
    ∃ i before after, log = before ++ .failed i f :: after ∧ ∀ j g, .failed j g ∉ before := by
  rw [findSome?_eq_some_iff]
  constructor
  · rintro ⟨before, e, after, hlog, he, hbefore⟩
    cases e with
    | failed i g =>
      cases he
      exact ⟨i, before, after, hlog,
        findSome?_fault_eq_none_iff.mp (findSome?_eq_none_iff.mpr hbefore)⟩
    | _ => cases he
  · rintro ⟨i, before, after, hlog, hbefore⟩
    exact ⟨before, .failed i f, after, hlog, rfl,
      findSome?_eq_none_iff.mp (findSome?_fault_eq_none_iff.mpr hbefore)⟩

lemma sound_eq_self (h : log.findSome? LogEntry.fault? = none) : sound log = log := by
  refine takeWhile_eq_self_iff.mpr fun e he => ?_
  rw [findSome?_eq_none_iff.mp h e he]
  rfl

lemma sound_append_of_none (h : log.findSome? LogEntry.fault? = none) :
    sound (log ++ es) = log ++ sound es := by
  refine takeWhile_append_of_pos fun e he => ?_
  rw [findSome?_eq_none_iff.mp h e he]
  rfl

lemma sound_append_of_some {f : Fault} (h : log.findSome? LogEntry.fault? = some f) :
    sound (log ++ es) = sound log := by
  induction log with
  | nil => cases h
  | cons e rest ih =>
    cases he : e.fault? with
    | none =>
      rw [findSome?_cons, he] at h
      simpa [sound, takeWhile_cons, he] using ih h
    | some g => simp [sound, he]

/-- Entries that are no successes add none to the sound part of a log. -/
lemma succeeded_mem_sound_append (h : .succeeded p ∉ es) :
    .succeeded p ∈ sound (log ++ es) ↔ .succeeded p ∈ sound log := by
  cases hf : log.findSome? LogEntry.fault? with
  | some f => rw [sound_append_of_some hf]
  | none =>
    rw [sound_append_of_none hf, sound_eq_self hf, mem_append, or_iff_left]
    exact fun hp => h ((takeWhile_sublist _).subset hp)

lemma mem_filterMap_dispatch : c ∈ log.filterMap LogEntry.dispatch? ↔ .dispatched c ∈ log := by
  rw [mem_filterMap]
  constructor
  · rintro ⟨e, he, hc⟩
    cases e <;> simp_all [LogEntry.dispatch?]
  · exact fun h => ⟨_, h, rfl⟩

lemma mem_filterMap_success : c ∈ log.filterMap LogEntry.success? ↔ .succeeded c ∈ log := by
  rw [mem_filterMap]
  constructor
  · rintro ⟨e, he, hc⟩
    cases e <;> simp_all [LogEntry.success?]
  · exact fun h => ⟨_, h, rfl⟩

/-- What a log says of the unit of one node. -/
def about (log : List LogEntry) (i : Nat) : List LogEntry :=
  log.filter fun e => e.node = i

lemma mem_about {e : LogEntry} : e ∈ about log i ↔ e ∈ log ∧ e.node = i := by
  simp [about]

lemma about_append : about (log ++ es) i = about log i ++ about es i :=
  filter_append ..

lemma about_eq_nil (h : ∀ e ∈ es, e.node ≠ i) : about es i = [] := by
  simpa [about] using h

lemma about_dispatched {l : List Nat} (hl : l.Nodup) :
    about (l.map .dispatched) i = if i ∈ l then [.dispatched i] else [] := by
  induction l with
  | nil => rfl
  | cons a l ih =>
    rw [nodup_cons] at hl
    by_cases ha : a = i
    · subst ha
      have := ih hl.2
      simp_all [about, LogEntry.node]
    · have := ih hl.2
      simp_all [about, LogEntry.node, Ne.symm ha]

/-- What a log says of a unit that stands in a phase: it has gone through the stages up to there,
once each. -/
inductive Story (i : Nat) : Phase τ → List LogEntry → Prop
  | idle : Story i .idle []
  | queued : Story i .queued [.dispatched i]
  | running (job : τ) : Story i (.running job) [.dispatched i, .started i]
  | joining (children : List Nat) :
      Story i (.joining children) [.dispatched i, .started i, .succeeded i]
  | failed (f : Fault) : Story i .finished [.dispatched i, .started i, .failed i f]
  | leaf : Story i .finished [.dispatched i, .started i, .succeeded i]
  | joined : Story i .finished [.dispatched i, .started i, .succeeded i, .joined i]
  | crashed (n : Nat) : Story i .crashed
      ([.dispatched i, .started i, .crashed i] ++ replicate n (.failed i (Dispatch.crashFault i)))

lemma Story.dispatched_mem {phase : Phase τ} (h : Story i phase es) (hidle : phase ≠ .idle) :
    .dispatched i ∈ es := by
  cases h with
  | idle => exact absurd rfl hidle
  | _ => simp

lemma Story.eq_nil (h : Story i (.idle : Phase τ) es) : es = [] := by
  cases h
  rfl

lemma Story.eq_of_queued (h : Story i (.queued : Phase τ) es) : es = [.dispatched i] := by
  cases h
  rfl

lemma Story.eq_of_running {job : τ} (h : Story i (.running job) es) :
    es = [.dispatched i, .started i] := by
  cases h
  rfl

lemma Story.eq_of_joining {children : List Nat} (h : Story i (.joining children : Phase τ) es) :
    es = [.dispatched i, .started i, .succeeded i] := by
  cases h
  rfl

/-- A crash may be noticed any number of times. -/
lemma Story.noticed (h : Story i (.crashed : Phase τ) es) (n : Nat) :
    Story i (.crashed : Phase τ) (es ++ replicate n (.failed i (Dispatch.crashFault i))) := by
  cases h with
  | crashed k =>
    rw [append_assoc, replicate_append_replicate]
    exact .crashed (k + n)

lemma Story.succeeded_not_mem {phase : Phase τ} (h : Story i phase es)
    (hbusy : (phase.isQueued || phase.isRunning) = true) : .succeeded i ∉ es := by
  cases h with
  | queued => simp
  | running job => simp
  | _ => cases hbusy

end PageRender
