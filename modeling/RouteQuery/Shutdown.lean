/-! A signal to stop that stays once it is given. -/
namespace RouteQuery

structure Shutdown where
  triggered : Bool := false
  receivers : Nat := 0
  deriving DecidableEq, Repr

namespace Shutdown

def trigger (s : Shutdown) : Shutdown := { s with triggered := true }

def subscribe (s : Shutdown) : Shutdown := { s with receivers := s.receivers + 1 }

def unsubscribe (s : Shutdown) : Shutdown := { s with receivers := s.receivers - 1 }

/-- What each receiver sees, the late ones too. -/
def seen (s : Shutdown) : List Bool := List.replicate s.receivers s.triggered

end Shutdown
end RouteQuery
