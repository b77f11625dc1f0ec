/-! News of applied queries, for any number of subscribers. -/
namespace RouteQuery

/-- Tells that a query was applied, the `generation`-th one, and which paths it routed. -/
structure Ready where
  generation : Nat
  paths : List String
  deriving DecidableEq, Repr

namespace Ready

/-- How many events are kept for subscribers that fall behind. -/
def capacity : Nat := 16

/-- The number of events so far and the last of them, the oldest first. -/
structure Signal where
  generation : Nat := 0
  kept : List Ready := []
  deriving DecidableEq, Repr

/-- A subscriber has seen, or been told to have missed, this many events. -/
structure Subscriber where
  seen : Nat
  deriving DecidableEq, Repr

inductive Received where
  | event (ready : Ready)
  /-- This many events are gone. -/
  | lagged (missed : Nat)
  | empty
  deriving DecidableEq, Repr

namespace Signal

def emit (s : Signal) (paths : List String) : Signal :=
  let kept := s.kept ++ [⟨s.generation + 1, paths⟩]
  ⟨s.generation + 1, kept.drop (kept.length - capacity)⟩

/-- Sees the events after this one. -/
def subscribe (s : Signal) : Subscriber := ⟨s.generation⟩

/-- The generation before the oldest kept event. -/
def dropped (s : Signal) : Nat := s.generation - s.kept.length

/-- The next event for a subscriber. One that fell behind is told so once and goes on with the
oldest kept event. -/
def receive (s : Signal) (subscriber : Subscriber) : Received × Subscriber :=
  if subscriber.seen < s.dropped then
    (.lagged (s.dropped - subscriber.seen), ⟨s.dropped⟩)
  else match s.kept[subscriber.seen - s.dropped]? with
    | some ready => (.event ready, ⟨subscriber.seen + 1⟩)
    | none => (.empty, subscriber)

end Signal
end Ready
end RouteQuery
