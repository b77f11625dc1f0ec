import RouteQuery.Proofs.Accepting

/-! Subscribers of a site while queries are applied and refused. Each of them is told of every query
applied since it subscribed, once and in order, or of how many it has missed. -/
namespace RouteQuery
open Execution

/-! ### What a subscriber has been told -/

namespace Ready.Received

def ready? : Received → Option Ready
  | event ready => some ready
  | _ => none

/-- How many events an answer reports as gone. -/
def missed : Received → Nat
  | lagged k => k
  | _ => 0

/-- Answers that lead from one generation to another. An event is of the next generation, and a lag
passes over as many generations as it reports. -/
def Follows (first : Nat) : List Received → Nat → Prop
  | [], last => first = last
  | .event ready :: rest, last => ready.generation = first + 1 ∧ Follows (first + 1) rest last
  | .lagged k :: rest, last => 0 < k ∧ Follows (first + k) rest last
  | .empty :: rest, last => Follows first rest last

def events (received : List Received) : List Ready := received.filterMap ready?

def missedIn : List Received → Nat
  | [] => 0
  | answer :: rest => answer.missed + missedIn rest

variable {first last : Nat} {received : List Received} {answer : Received}

theorem follows_concat (h : Follows first received last) {next : Nat}
    (hanswer : Follows last [answer] next) : Follows first (received ++ [answer]) next := by
  fun_induction Follows first received last with
  | case1 first last =>
    obtain rfl : first = last := h
    exact hanswer
  | case2 first ready rest last ih => exact ⟨h.1, ih h.2 hanswer⟩
  | case3 first k rest last ih => exact ⟨h.1, ih h.2 hanswer⟩
  | case4 first rest last ih => exact ih h hanswer

/-- Every generation passed is that of an event or has been reported as missed. -/
theorem generations_of_follows (h : Follows first received last) :
    first + (events received).length + missedIn received = last := by
  fun_induction Follows first received last with
  | case1 first last => exact h
  | case2 first ready rest last ih =>
    have hrest := ih h.2
    simp only [events, missedIn, ready?, missed, List.filterMap_cons, List.length_cons] at hrest ⊢
    omega
  | case3 first k rest last ih =>
    have hrest := ih h.2
    simp only [events, missedIn, ready?, missed, List.filterMap_cons] at hrest ⊢
    omega
  | case4 first rest last ih =>
    have hrest := ih h
    simp only [events, missedIn, ready?, missed, List.filterMap_cons] at hrest ⊢
    omega

theorem mem_events_concat {ready : Ready} :
    ready ∈ events (received ++ [answer]) ↔ ready ∈ events received ∨ answer = .event ready := by
  cases answer <;> simp [events, ready?, eq_comm]

end Ready.Received

/-! ### Calls -/

/-- A query as it is handed to a site. -/
structure Call where
  site : Site
  workspace : Workspace
  app : App
  source : String

namespace Call

def outcome (c : Call) : Except Fault Unit × Site × App := c.site.set c.workspace c.app c.source

/-- The call is applied and these are the paths that it routes. Behind the entries of its hooks it
adds a block of entries for each of them. -/
def Routes (c : Call) (paths : List String) : Prop :=
  ∃ (site : Site) (query : PreparedQuery) (d : Document) (hooked : App)
    (blocks : List (List RouteEntry)),
    c.outcome =
      (.ok (), site, c.app.extend { hooked with entries := hooked.entries ++ blocks.flatten }) ∧
    c.site.Applies c.workspace c.source site query d hooked blocks.flatten ∧
    List.Forall₂ (fun path block => block ≠ [] ∧ ∀ entry ∈ block, entry.matcher.source.text = path)
      paths blocks

end Call

/-- The event tells of the call that was applied as the one of its generation. -/
def Ready.TellsOf (applied : List Call) (ready : Ready) : Prop :=
  ∃ i call, ready.generation = i + 1 ∧ applied[i]? = some call ∧ call.Routes ready.paths

theorem Ready.TellsOf.append {applied : List Call} {ready : Ready} (h : ready.TellsOf applied)
    (later : List Call) : ready.TellsOf (applied ++ later) := by
  obtain ⟨i, call, hgeneration, hcall, hroutes⟩ := h
  obtain ⟨hi, -⟩ := List.getElem?_eq_some_iff.mp hcall
  exact ⟨i, call, hgeneration, by rw [List.getElem?_append_left hi, hcall], hroutes⟩

theorem Registry.EntryFor.text {r : Registry} (hr : r.Consistent)
    {params : List (String × Descriptor)} {route : PathRoute} {entry : RouteEntry}
    (h : r.EntryFor params route entry) :
    entry.matcher.source.text = (RoutePath.ofIdentifier route.identifier).text := by
  obtain ⟨path, hpath, hcompile⟩ := h.matcher
  rw [PathMatcher.source_of_compile hcompile, hr.ofIdentifier_of_path? hpath]

theorem Site.ready_of_set_error {s s' : Site} {w : Workspace} {app app' : App} {source : String}
    {fault : Fault} (h : s.set w app source = (.error fault, s', app')) : s'.ready = s.ready := by
  have hcases := (set_cases s w app source).2
  rw [h] at hcases
  rcases hcases with ⟨_, -, hready⟩ | ⟨_, hok, -⟩
  · exact hready
  · cases hok

/-- A query that is applied announces the paths that it routes. -/
theorem Site.routes_of_set {s s' : Site} {w : Workspace} {app app' : App} {source : String}
    (hs : s.Consistent) (h : s.set w app source = (.ok (), s', app')) :
    ∃ paths, s'.ready = s.ready.emit paths ∧ Call.Routes ⟨s, w, app, source⟩ paths := by
  obtain ⟨query, d, hooked, routed, happlies, rfl⟩ := applies_of_set hs h
  have hgrouped := happlies.routed
  rw [Selection.routesOf_pathAnswers] at hgrouped
  obtain ⟨blocks, rfl, hblocks⟩ := forall₂_flatMap_left hgrouped
  refine ⟨_, happlies.ready, s', query, d, hooked, blocks, h, happlies, ?_⟩
  have hfilled := (Document.filled_of_parse happlies.accepts.parse).2
  have hregistry := (hs.of_set h).registry
  have hmem : ∀ id ∈ fieldNames d.selections, id ∈ fieldNames d.selections := fun _ hid => hid
  rw [List.forall₂_map_left_iff]
  refine ((List.forall₂_and_left _ _).mpr ⟨hmem, hblocks⟩).imp fun id block hblock => ?_
  obtain ⟨hid, hentries⟩ := hblock
  constructor
  · rintro rfl
    have hnone := List.forall₂_nil_right_iff.mp hentries
    exact Selection.routesFor_ne_nil hfilled happlies.accepts.paths hid hnone
  · refine forall_mem_of_forall₂ hentries fun route hroute entry hentry => ?_
    rw [hentry.text hregistry, Selection.identifier_of_mem_routesFor hroute]

/-! ### The events of a site -/

namespace Ready.Signal
open Received

variable {s : Signal} {applied : List Call}

/-- There is an event for each applied call, and as many of them as there is room for are kept. -/
structure Announces (s : Signal) (applied : List Call) : Prop where
  consistent : s.Consistent
  generation : s.generation = applied.length
  kept : s.kept.length = min s.generation capacity
  tells : ∀ ready ∈ s.kept, ready.TellsOf applied

theorem announces_emit (h : s.Announces applied) {call : Call} {paths : List String}
    (hcall : call.Routes paths) : (s.emit paths).Announces (applied ++ [call]) where
  consistent := consistent_emit h.consistent paths
  generation := by
    rw [List.length_append, ← h.generation]
    rfl
  kept := length_kept_emit h.kept paths
  tells := by
    intro ready hready
    have hmem : ready ∈ s.kept ++ [Ready.mk (s.generation + 1) paths] := List.mem_of_mem_drop hready
    rcases List.mem_append.mp hmem with hold | hnew
    · exact (h.tells ready hold).append [call]
    · obtain rfl := List.mem_singleton.mp hnew
      refine ⟨applied.length, call, ?_, List.getElem?_concat_length, hcall⟩
      rw [h.generation]

/-- The next answer for a subscriber that has been told of so many calls. -/
inductive Answers (applied : List Call) (seen : Nat) : Received × Subscriber → Prop
  | empty (h : seen = applied.length) : Answers applied seen (.empty, ⟨seen⟩)
  | event {ready : Ready} (h : seen < applied.length) (hkept : applied.length ≤ seen + capacity)
      (hgeneration : ready.generation = seen + 1) (htells : ready.TellsOf applied) :
      Answers applied seen (.event ready, ⟨seen + 1⟩)
  | lagged (h : seen + capacity < applied.length) :
      Answers applied seen
        (.lagged (applied.length - capacity - seen), ⟨applied.length - capacity⟩)

theorem answers_receive (h : s.Announces applied) {subscriber : Subscriber}
    (hseen : subscriber.seen ≤ applied.length) :
    Answers applied subscriber.seen (s.receive subscriber) := by
  have hgeneration := h.generation
  have hkept := h.kept
  rcases Nat.lt_or_ge (subscriber.seen + capacity) applied.length with hmany | hfew
  · have hdropped : s.dropped = applied.length - capacity := by
      rw [dropped]
      omega
    have hbehind : subscriber.seen < s.dropped := by omega
    rw [(receive_of_lt hbehind).1, hdropped]
    exact .lagged hmany
  rcases Nat.eq_or_lt_of_le hseen with hall | hsome
  · rw [receive_of_seen h.consistent (hall.trans hgeneration.symm)]
    exact .empty hall
  · have hbefore : subscriber.seen < s.generation := by omega
    have hroom : s.generation - subscriber.seen ≤ s.kept.length := by omega
    obtain ⟨ready, hmem, hnext, hreceive⟩ := receive_of_waiting h.consistent hbefore hroom
    rw [hreceive]
    exact .event hsome hfew hnext (h.tells ready hmem)

section
variable {seen : Nat} {outcome : Received × Subscriber}

theorem Answers.eq_lagged (h : Answers applied seen outcome)
    (hmany : seen + capacity < applied.length) :
    outcome = (.lagged (applied.length - capacity - seen), ⟨applied.length - capacity⟩) := by
  cases h with
  | lagged => rfl
  | empty | event => omega

theorem Answers.exists_event (h : Answers applied seen outcome) (hsome : seen < applied.length)
    (hfew : applied.length ≤ seen + capacity) :
    ∃ ready, ready.generation = seen + 1 ∧ outcome = (.event ready, ⟨seen + 1⟩) := by
  cases h with
  | event _ _ hgeneration => exact ⟨_, hgeneration, rfl⟩
  | empty | lagged => omega

theorem Answers.follows (h : Answers applied seen outcome) :
    Follows seen [outcome.1] outcome.2.seen := by
  cases h with
  | empty => rfl
  | event _ _ hgeneration => exact ⟨hgeneration, rfl⟩
  | lagged hmany =>
    have hlast : seen + (applied.length - capacity - seen) = applied.length - capacity := by omega
    exact ⟨by omega, hlast⟩

theorem Answers.seen_le (h : Answers applied seen outcome) : outcome.2.seen ≤ applied.length := by
  cases h with
  | empty hall => exact Nat.le_of_eq hall
  | event hsome => exact hsome
  | lagged => exact Nat.sub_le ..

theorem Answers.tells (h : Answers applied seen outcome) {ready : Ready}
    (hready : outcome.1 = .event ready) : ready.TellsOf applied := by
  cases h with
  | empty | lagged => cases hready
  | event _ _ _ htells =>
    obtain rfl := Received.event.inj hready
    exact htells

end

end Ready.Signal

/-! ### Subscribers -/

/-- A subscriber, the generation at which it subscribed, and all that it has received. -/
structure Listener where
  since : Nat
  subscriber : Ready.Subscriber
  received : List Ready.Received := []

namespace Listener
open Ready Received

variable {l : Listener} {s : Signal} {applied : List Call}

def receive (l : Listener) (s : Signal) : Listener :=
  { l with
    subscriber := (s.receive l.subscriber).2
    received := l.received ++ [(s.receive l.subscriber).1] }

structure Consistent (applied : List Call) (l : Listener) : Prop where
  follows : Follows l.since l.received l.subscriber.seen
  seen_le : l.subscriber.seen ≤ applied.length
  tells : ∀ ready ∈ events l.received, ready.TellsOf applied

theorem Consistent.append (h : l.Consistent applied) (later : List Call) :
    l.Consistent (applied ++ later) where
  follows := h.follows
  seen_le := by
    have hle := h.seen_le
    rw [List.length_append]
    omega
  tells := fun ready hready => (h.tells ready hready).append later

theorem Consistent.receive (h : l.Consistent applied) (hs : s.Announces applied) :
    (l.receive s).Consistent applied := by
  have hanswers := Signal.answers_receive hs h.seen_le
  constructor
  · exact follows_concat h.follows hanswers.follows
  · exact hanswers.seen_le
  · intro ready hready
    rcases mem_events_concat.mp hready with hold | hnew
    · exact h.tells ready hold
    · exact hanswers.tells hnew

/-- What a subscriber has been told of the calls that were applied since it subscribed, and what it
is told next. -/
structure Informed (s : Signal) (applied : List Call) (l : Listener) : Prop where
  follows : Follows l.since l.received l.subscriber.seen
  /-- Each call is told of, reported as missed, waiting, or gone and yet to be reported. -/
  accounted : (events l.received).length + missedIn l.received +
    ((s.pending l.subscriber).length + (s.dropped - l.subscriber.seen)) =
      (applied.drop l.since).length
  tells : ∀ ready ∈ events l.received, ready.TellsOf applied
  next : Signal.Answers applied l.subscriber.seen (s.receive l.subscriber)

theorem Consistent.informed (h : l.Consistent applied) (hs : s.Announces applied) :
    l.Informed s applied where
  follows := h.follows
  accounted := by
    have hle := h.seen_le
    have hgeneration := hs.generation
    have hpassed := generations_of_follows h.follows
    have hpending := Signal.length_pending hs.consistent l.subscriber (by omega)
    rw [List.length_drop]
    omega
  tells := h.tells
  next := Signal.answers_receive hs h.seen_le

end Listener

/-! ### A site and its subscribers -/

/-- A site with the calls that have been applied to it and its subscribers. -/
structure Audience where
  site : Site
  applied : List Call := []
  listeners : List Listener := []

namespace Audience

variable {a a' : Audience}

/-- A call is applied or refused, something else happens to the site, somebody subscribes, or one of
the subscribers asks for an event. -/
inductive Step : Audience → Audience → Prop
  | applied {a : Audience} {w : Workspace} {app app' : App} {source : String} {site : Site}
      (h : a.site.set w app source = (.ok (), site, app')) :
      Step a { a with site, applied := a.applied ++ [⟨a.site, w, app, source⟩] }
  | refused {a : Audience} {w : Workspace} {app app' : App} {source : String} {site : Site}
      {fault : Fault} (h : a.site.set w app source = (.error fault, site, app')) :
      Step a { a with site }
  | other {a : Audience} {site : Site} (h : Site.Step a.site site)
      (hready : site.ready = a.site.ready) : Step a { a with site }
  | subscribe (a : Audience) :
      Step a { a with
        listeners := a.listeners ++
          [{ since := a.site.generation, subscriber := a.site.ready.subscribe }] }
  | receive {a : Audience} {before after : List Listener} {l : Listener}
      (h : a.listeners = before ++ l :: after) :
      Step a { a with listeners := before ++ l.receive a.site.ready :: after }

inductive Reachable : Audience → Prop
  | new (context : Context) : Reachable { site := { context } }
  | step {a a' : Audience} (h : Reachable a) (hstep : Step a a') : Reachable a'

structure Consistent (a : Audience) : Prop where
  site : a.site.Reachable
  announces : a.site.ready.Announces a.applied
  listeners : ∀ l ∈ a.listeners, l.Consistent a.applied

theorem consistent_step (h : a.Consistent) (hstep : Step a a') : a'.Consistent := by
  cases hstep with
  | applied hset =>
    obtain ⟨paths, hready, hroutes⟩ := Site.routes_of_set h.site.consistent hset
    refine ⟨h.site.of_set hset, ?_, fun l hl => (h.listeners l hl).append _⟩
    rw [hready]
    exact Ready.Signal.announces_emit h.announces hroutes
  | refused hset =>
    refine ⟨h.site.of_set hset, ?_, h.listeners⟩
    rw [Site.ready_of_set_error hset]
    exact h.announces
  | other hother hready =>
    refine ⟨h.site.step hother, ?_, h.listeners⟩
    rw [hready]
    exact h.announces
  | subscribe =>
    refine ⟨h.site, h.announces, ?_⟩
    rw [List.forall_mem_append, List.forall_mem_singleton]
    refine ⟨h.listeners, rfl, Nat.le_of_eq h.announces.generation, ?_⟩
    simp [Ready.Received.events]
  | receive hlisteners =>
    have hall := h.listeners
    rw [hlisteners, List.forall_mem_append, List.forall_mem_cons] at hall
    refine ⟨h.site, h.announces, ?_⟩
    rw [List.forall_mem_append, List.forall_mem_cons]
    exact ⟨hall.1, hall.2.1.receive h.announces, hall.2.2⟩

theorem Reachable.consistent (h : a.Reachable) : a.Consistent := by
  induction h with
  | new context => exact ⟨.new context, ⟨Ready.Signal.consistent_new, rfl, rfl, by simp⟩, by simp⟩
  | step _ hstep ih => exact consistent_step ih hstep

/-- Whatever calls are applied and refused, and whoever subscribes and receives in between, every
subscriber is told of all calls since it subscribed, or of how many it has missed. -/
theorem Reachable.all_informed (h : a.Reachable) :
    a.site.generation = a.applied.length ∧
      ∀ l ∈ a.listeners, l.Informed a.site.ready a.applied := by
  have hconsistent := h.consistent
  refine ⟨hconsistent.announces.generation, fun l hl => ?_⟩
  exact (hconsistent.listeners l hl).informed hconsistent.announces

/-! ### A subscriber that falls behind -/

/-- So many calls have been applied since somebody subscribed who has not received anything. -/
theorem exists_greeted (n : Nat) : ∃ a : Audience, a.Reachable ∧
    a.listeners = [{ since := 0, subscriber := ⟨0⟩ }] ∧ a.applied.length = n ∧
    a.site.registry.taskNames = ["hello"] ∧ a.site.registry.params = [] := by
  induction n with
  | zero =>
    have hadd : Site.addTask {} { name := "hello", handler := StockTasks.hello } =
        .ok Site.greeting := rfl
    have hsite := (Reachable.new .empty).step (.other (.addTask hadd) rfl)
    exact ⟨_, hsite.step (.subscribe _), rfl, rfl, rfl, rfl⟩
  | succ n ih =>
    obtain ⟨a, ha, hlisteners, hlength, htasks, hparams⟩ := ih
    have hpath : RoutePath.IsText "/a" := ⟨by decide, List.all_eq_true.mp (by decide)⟩
    obtain ⟨site, app', hset, htasks', hparams', -⟩ :=
      Site.set_greetAt ha.consistent.site.consistent htasks hparams ⟨"/", []⟩ {} hpath
        (by decide +kernel)
    refine ⟨_, ha.step (.applied hset), hlisteners, ?_, htasks', hparams'⟩
    rw [List.length_append, hlength, List.length_singleton]

/-- Of seventeen events the first is gone when it is asked for, and the second is received. -/
theorem informed_greeted : ∃ (a : Audience) (l : Listener) (ready : Ready), a.Reachable ∧
    a.listeners = [l] ∧ a.applied.length = 17 ∧ l.since = 0 ∧
    l.received = [.lagged 1, .event ready] ∧ ready.generation = 2 ∧
    l.Informed a.site.ready a.applied := by
  obtain ⟨a, ha, hlisteners, hlength, -⟩ := exists_greeted 17
  have informed {l : Listener} (h : Reachable { a with listeners := [l] }) :
      l.Informed a.site.ready a.applied := h.all_informed.2 l (List.mem_singleton_self l)
  have ha : Reachable { a with listeners := [{ since := 0, subscriber := ⟨0⟩ }] } := hlisteners ▸ ha
  have hfirst := (informed ha).next.eq_lagged (by simp [hlength, Ready.capacity])
  have hb := ha.step (@Step.receive _ [] [] _ rfl)
  have hreceive : Listener.receive { since := 0, subscriber := ⟨0⟩ } a.site.ready =
      { since := 0, subscriber := ⟨1⟩, received := [.lagged 1] } := by
    simp [Listener.receive, hfirst, hlength, Ready.capacity]
  rw [List.nil_append, hreceive] at hb
  obtain ⟨ready, hgeneration, hsecond⟩ := (informed hb).next.exists_event
    (by simp [hlength]) (by simp [hlength, Ready.capacity])
  have hc := hb.step (@Step.receive _ [] [] _ rfl)
  refine ⟨_, _, ready, hc, rfl, hlength, rfl, ?_, hgeneration, informed hc⟩
  simp [Listener.receive, hsecond]

end Audience
end RouteQuery
