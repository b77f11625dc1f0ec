import Mathlib.Tactic.Common
import RouteQuery.Ready

/-! The events that subscribers are still to receive, and what one more event changes. -/
namespace RouteQuery.Ready.Signal

/-- The kept events are the latest ones, numbered without a gap. -/
structure Consistent (s : Signal) : Prop where
  kept_le : s.kept.length ≤ s.generation
  generations : s.kept.map (·.generation) = List.range' (s.dropped + 1) s.kept.length

theorem consistent_new : Consistent {} := ⟨Nat.le_refl 0, rfl⟩

/-- The latest events, no more than are kept. -/
def latest (events : List Ready) : List Ready := events.drop (events.length - capacity)

theorem consistent_emit {s : Signal} (h : s.Consistent) (paths : List String) :
    (s.emit paths).Consistent := by
  have hle := h.kept_le
  have hall : (s.kept ++ [Ready.mk (s.generation + 1) paths]).map Ready.generation =
      List.range' (s.generation - s.kept.length + 1) (s.kept.length + 1) := by
    rw [List.map_append, h.generations, dropped, List.range'_concat]
    simp only [List.map_cons, List.map_nil, Nat.one_mul]
    congr 2
    omega
  constructor
  · simp only [emit, List.length_drop, List.length_append, List.length_singleton]
    omega
  · simp only [emit, dropped, List.map_drop, hall, List.drop_range', List.length_drop,
      List.length_append, List.length_singleton]
    congr 1
    omega

/-- The events that a subscriber is still to receive. -/
def pending (s : Signal) (subscriber : Subscriber) : List Ready :=
  s.kept.drop (subscriber.seen - s.dropped)

/-- A subscriber that fell behind is told so and loses nothing more. -/
theorem receive_of_lt {s : Signal} {subscriber : Subscriber} (h : subscriber.seen < s.dropped) :
    s.receive subscriber = (.lagged (s.dropped - subscriber.seen), ⟨s.dropped⟩) ∧
      s.pending ⟨s.dropped⟩ = s.pending subscriber := by
  refine ⟨by rw [receive, if_pos h], ?_⟩
  rw [pending, pending, Nat.sub_self, Nat.sub_eq_zero_of_le (Nat.le_of_lt h)]

theorem receive_of_le {s : Signal} (subscriber : Subscriber) (h : s.dropped ≤ subscriber.seen) :
    match s.pending subscriber with
    | [] => s.receive subscriber = (.empty, subscriber)
    | event :: rest => s.receive subscriber = (.event event, ⟨subscriber.seen + 1⟩) ∧
        s.pending ⟨subscriber.seen + 1⟩ = rest := by
  have hnext : subscriber.seen + 1 - s.dropped = subscriber.seen - s.dropped + 1 := by omega
  rw [receive, if_neg (Nat.not_lt.mpr h)]
  cases hpending : s.pending subscriber with
  | nil =>
    have hle : s.kept.length ≤ subscriber.seen - s.dropped := List.drop_eq_nil_iff.mp hpending
    simp only [List.getElem?_eq_none hle]
  | cons event rest =>
    have hget : s.kept[subscriber.seen - s.dropped]? = some event := by
      rw [← List.head?_drop]
      exact congrArg List.head? hpending
    refine ⟨by simp only [hget], ?_⟩
    rw [pending, hnext, ← List.tail_drop]
    exact congrArg List.tail hpending

/-- A new event comes last for every subscriber. Who has too many events to receive loses the
first of them. -/
theorem pending_emit {s : Signal} (h : s.Consistent) (paths : List String)
    (subscriber : Subscriber) (hseen : subscriber.seen ≤ s.generation) :
    (s.emit paths).pending subscriber =
      latest (s.pending subscriber ++ [⟨s.generation + 1, paths⟩]) := by
  have hle := h.kept_le
  have hdrop : subscriber.seen - s.dropped ≤ s.kept.length := by
    simp only [dropped]
    omega
  have hsplit : s.pending subscriber ++ [⟨s.generation + 1, paths⟩] =
      (s.kept ++ [Ready.mk (s.generation + 1) paths]).drop (subscriber.seen - s.dropped) := by
    rw [pending, List.drop_append_of_le_length hdrop]
  rw [hsplit, latest, List.drop_drop]
  simp only [pending, emit, dropped, List.drop_drop, List.length_drop, List.length_append,
    List.length_singleton]
  congr 1
  omega

/-- Who subscribed just before an event receives it and then nothing. -/
theorem receive_emit_subscribe {s : Signal} (h : s.Consistent) (paths : List String) :
    (s.emit paths).receive s.subscribe =
        (.event ⟨s.generation + 1, paths⟩, ⟨s.generation + 1⟩) ∧
      (s.emit paths).receive ⟨s.generation + 1⟩ = (.empty, ⟨s.generation + 1⟩) := by
  have hle := h.kept_le
  have hdropped : (s.emit paths).dropped ≤ s.generation := by
    simp only [dropped, emit, List.length_drop, List.length_append, List.length_singleton, capacity]
    omega
  have hnone : s.pending s.subscribe = [] := by
    rw [pending, List.drop_eq_nil_iff, subscribe, dropped]
    simp only
    omega
  have hpending := pending_emit h paths s.subscribe (Nat.le_refl _)
  have hreceive := receive_of_le s.subscribe hdropped
  rw [hpending, hnone] at hreceive
  refine ⟨hreceive.1, ?_⟩
  have hempty := receive_of_le ⟨s.generation + 1⟩ (Nat.le_succ_of_le hdropped)
  rw [show (s.emit paths).pending ⟨s.generation + 1⟩ = [] from hreceive.2] at hempty
  exact hempty

/-! ### Falling behind -/

/-- As many events are kept as there were, up to the capacity. -/
theorem length_kept_emit {s : Signal} (h : s.kept.length = min s.generation capacity)
    (paths : List String) : (s.emit paths).kept.length = min (s.emit paths).generation capacity := by
  simp only [emit, List.length_drop, List.length_append, List.length_singleton]
  omega

theorem generation_of_kept {s : Signal} (h : s.Consistent) {i : Nat} {ready : Ready}
    (hget : s.kept[i]? = some ready) : ready.generation = s.dropped + 1 + i := by
  have hmap : (s.kept.map (·.generation))[i]? = some ready.generation := by
    rw [List.getElem?_map, hget]
    rfl
  obtain ⟨hi, -⟩ := List.getElem?_eq_some_iff.mp hget
  rw [h.generations, List.getElem?_range' (by simpa using hi)] at hmap
  have := Option.some.inj hmap
  omega

/-- All events that a subscriber has not been told of wait for it or are gone unreported. -/
theorem length_pending {s : Signal} (h : s.Consistent) (subscriber : Subscriber)
    (hseen : subscriber.seen ≤ s.generation) :
    (s.pending subscriber).length + (s.dropped - subscriber.seen) =
      s.generation - subscriber.seen := by
  have hle := h.kept_le
  rw [pending, List.length_drop, dropped]
  omega

theorem receive_of_seen {s : Signal} (h : s.Consistent) {subscriber : Subscriber}
    (hseen : subscriber.seen = s.generation) : s.receive subscriber = (.empty, subscriber) := by
  have hle := h.kept_le
  have hdropped : s.dropped ≤ subscriber.seen := by
    rw [dropped]
    omega
  have hreceive := receive_of_le subscriber hdropped
  have hnone : s.pending subscriber = [] := by
    rw [pending, List.drop_eq_nil_iff, dropped]
    omega
  rw [hnone] at hreceive
  exact hreceive

/-- A subscriber that is not too far behind receives the event after the last one it was told of. -/
theorem receive_of_waiting {s : Signal} (h : s.Consistent) {subscriber : Subscriber}
    (hseen : subscriber.seen < s.generation) (hkept : s.generation - subscriber.seen ≤ s.kept.length) :
    ∃ ready ∈ s.kept, ready.generation = subscriber.seen + 1 ∧
      s.receive subscriber = (.event ready, ⟨subscriber.seen + 1⟩) := by
  have hle := h.kept_le
  have hdropped : s.dropped ≤ subscriber.seen := by
    rw [dropped]
    omega
  have hi : subscriber.seen - s.dropped < s.kept.length := by
    rw [dropped]
    omega
  have hget := List.getElem?_eq_getElem hi
  refine ⟨s.kept[subscriber.seen - s.dropped], List.getElem_mem hi, ?_, ?_⟩
  · have hgeneration := generation_of_kept h hget
    omega
  · rw [receive, if_neg (Nat.not_lt.mpr hdropped)]
    simp only [hget]

end RouteQuery.Ready.Signal
