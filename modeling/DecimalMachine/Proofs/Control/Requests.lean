/-
# The first request of a listener

A run hands its journal to a listener emission by emission. Until the listener asks for a pause it sees
the run flag set, and from the next emission on it sees it clear; a later request changes nothing any
more. So what matters of a listener is where it asks first.

| part of the journal | run flag that the listener sees |
| --- | --- |
| before the first request | set |
| the event of the first request | set |
| after the first request | clear |
-/

import DecimalMachine.Control.Listener

namespace DecimalMachine
namespace Listener

variable {σ : Type} (l : Listener σ) (s : σ)

/-- The listener after emissions at all of which it saw the run flag alike. -/
def hearAll (running : Bool) (s : σ) (j : Journal) : σ :=
  j.foldl (fun s emission => l.hear s running emission) s

/-- Whether the listener asks for a pause at an event of a journal, if the run flag is set when it hears
the first emission. -/
def asks (l : Listener σ) (s : σ) : Journal → Bool
  | [] => false
  | .event e :: rest => l.pauses s e || l.asks (l.hear s true (.event e)) rest
  | emission :: rest => l.asks (l.hear s true emission) rest

/-- The listener hears the journal `before ++ .event e :: after`, and the first event at which it asks
for a pause is the one in the middle. -/
structure FirstRequest (before : Journal) (e : Event) (after : Journal) (j : Journal) : Prop where
  parts : j = before ++ .event e :: after
  quiet : l.asks s before = false
  asked : l.pauses (l.hearAll true s before) e = true

/-- Emissions are heard one after the other. -/
theorem hearAll_append (running : Bool) (j k : Journal) :
    l.hearAll running s (j ++ k) = l.hearAll running (l.hearAll running s j) k :=
  List.foldl_append

/-- Once the run flag is clear the listener hears everything so. -/
theorem deliver_clear (j : Journal) : l.deliver false s j = (false, l.hearAll false s j) := by
  induction j generalizing s with
  | nil => rfl
  | cons emission rest ih => cases emission <;> exact ih _

/-- **Without a request the run flag stays set**, and the listener sees it so throughout. -/
theorem deliver_of_quiet {j : Journal} (quiet : l.asks s j = false) :
    l.deliver true s j = (true, l.hearAll true s j) := by
  induction j generalizing s with
  | nil => rfl
  | cons emission rest ih =>
    cases emission with
    | event e =>
      rw [asks, Bool.or_eq_false_iff] at quiet
      obtain ⟨hfirst, hrest⟩ := quiet
      rw [deliver, hfirst]
      exact ih _ hrest
    | record r => exact ih _ quiet
    | prompt => exact ih _ quiet

/-- The run flag is clear after a journal exactly if there was a request. -/
theorem deliver_fst (j : Journal) : (l.deliver true s j).1 = !l.asks s j := by
  induction j generalizing s with
  | nil => rfl
  | cons emission rest ih =>
    cases emission with
    | event e =>
      rw [deliver, asks]
      cases hfirst : l.pauses s e with
      | true => exact l.deliver_false _ rest
      | false => exact ih _
    | record r => exact ih _
    | prompt => exact ih _

/-- A listener asks for a pause in one of two journals, the second of which it hears after the first. -/
theorem asks_append (j k : Journal) :
    l.asks s (j ++ k) = (l.asks s j || l.asks (l.hearAll true s j) k) := by
  induction j generalizing s with
  | nil => rfl
  | cons emission rest ih =>
    cases emission with
    | event e =>
      rw [List.cons_append, asks, asks, ih, Bool.or_assoc]
      rfl
    | record r => exact ih _
    | prompt => exact ih _

/-- A silent listener never asks for a pause. -/
theorem asks_silent (hear : σ → Emission → σ) (s : σ) (j : Journal) :
    (silent hear).asks s j = false := by
  induction j generalizing s with
  | nil => rfl
  | cons emission rest ih => cases emission <;> exact ih _

/-- A listener that asks for a pause does so somewhere first. -/
theorem exists_firstRequest {j : Journal} (h : l.asks s j = true) :
    ∃ before e after, l.FirstRequest s before e after j := by
  induction j generalizing s with
  | nil => cases h
  | cons emission rest ih =>
    have later (hquiet : l.asks s [emission] = false)
        (hrest : l.asks (l.hear s true emission) rest = true) :
        ∃ before e after, l.FirstRequest s before e after (emission :: rest) := by
      obtain ⟨before, e, after, first⟩ := ih _ hrest
      refine ⟨emission :: before, e, after, ?_, ?_, first.asked⟩
      · rw [first.parts, List.cons_append]
      · rw [← List.singleton_append, asks_append, hquiet]
        exact first.quiet
    cases emission with
    | event e =>
      by_cases hfirst : l.pauses s e = true
      · exact ⟨[], e, rest, rfl, rfl, hfirst⟩
      · rw [Bool.not_eq_true] at hfirst
        rw [asks, hfirst] at h
        exact later (by rw [asks, hfirst]; rfl) h
    | record r => exact later rfl h
    | prompt => exact later rfl h

variable {l s}

/-- **The run flag around the first request**: every emission up to it is heard while the flag is set,
and every later one while it is clear. -/
theorem FirstRequest.deliver {before after j : Journal} {e : Event}
    (h : l.FirstRequest s before e after j) :
    l.deliver true s j =
      (false, l.hearAll false (l.hearAll true s (before ++ [.event e])) after) := by
  have hrequest : (true && !l.pauses (l.hearAll true s before) e) = false := by
    rw [h.asked]
    rfl
  rw [h.parts, deliver_append, l.deliver_of_quiet s h.quiet, hearAll_append]
  dsimp only
  rw [Listener.deliver, hrequest, deliver_clear]
  rfl

/-- A listener with a first request does ask for a pause. -/
theorem FirstRequest.asks {before after j : Journal} {e : Event}
    (h : l.FirstRequest s before e after j) : l.asks s j = true := by
  have hfirst := l.deliver_fst s j
  rw [h.deliver] at hfirst
  simpa using hfirst

end Listener
end DecimalMachine
