import AmbiLex.Proofs.Engine.Sequence

/-!
# The items of a recognizer are the routes through its log

A recognizer of sequences need not be driven by a lexer. Whoever offers it tokens and completes its
positions, in whatever order and number, makes a log of events, and the log says which tokens can be
put one behind the other. A *route* does that: it picks offers by their places in the log, the first
one made at position 0 and each other one at the position where the one before it ends, so that the
automaton has somewhere to go with each of them (`Route.Through`).

Two offers can be of the same terminal with the same value and length, and are still two. So a route
consists of places and not of tokens, and a list of routes without repetition counts the ways
through the log.

The recognizer keeps an item for each route (`Routed`). What carries this is that a token has a
length. An offer can then only be the last one of a route as long as its position is not completed,
and no route is missed, because all that end at a position were there when it was reached.
-/

namespace AmbiLex

variable {ν : Type}

/-! ## Logs -/

/-- Whether a position was completed. -/
def RecognizerEvent.completes : RecognizerEvent ν → Bool
  | completed _ => true
  | alternative _ _ _ => false

/-- **The number of positions completed** in a log, which is the position after it. -/
def positionAfter (log : List (RecognizerEvent ν)) : Nat :=
  log.countP RecognizerEvent.completes

theorem positionAfter_append (log more : List (RecognizerEvent ν)) :
    positionAfter (log ++ more) = positionAfter log + positionAfter more :=
  List.countP_append

/-- The position does not go back. -/
theorem positionAfter_take_le (log : List (RecognizerEvent ν)) (place : Nat) :
    positionAfter (log.take place) ≤ positionAfter log :=
  (List.take_sublist place log).countP_le

/-- An offer does not change the position. -/
theorem positionAfter_take_alternative (log : List (RecognizerEvent ν)) (place : Nat)
    (terminal : String) (value : ν) (length : Int) :
    positionAfter ((log ++ [RecognizerEvent.alternative terminal value length]).take place)
      = positionAfter (log.take place) := by
  rw [List.take_append, positionAfter_append, Nat.add_eq_left]
  refine List.countP_eq_zero.mpr fun event hevent => ?_
  rw [List.mem_singleton.mp (List.mem_of_mem_take hevent)]
  exact Bool.false_ne_true

/-- **The log of some requests** that are dealt with from a position on: the tokens offered and the
positions completed. -/
def Request.log : Nat → List (Request ν) → List (RecognizerEvent ν)
  | _, [] => []
  | position, .offer terminal value length :: requests =>
    .alternative terminal value length :: log position requests
  | position, .complete :: requests => .completed position :: log (position + 1) requests
  | position, .expect :: requests | position, .exhausted :: requests => log position requests

/-! ## Routes -/

/-- **A route**: offers of a log, one behind the other, and where they lead. -/
structure Route (ν : Type) where
  /-- The places of the offers in the log. -/
  offers : List Nat
  /-- The position where the last token ends. -/
  position : Nat
  /-- The state of the automaton there. -/
  state : String
  /-- The terminals and values of the tokens, from the first to the last. -/
  path : List (String × ν)

namespace Route

/-- The route without offers. -/
def start (g : SequenceGrammar) : Route ν :=
  ⟨[], 0, g.start, []⟩

/-- **The route that goes on with an offer**, if the automaton has somewhere to go with it. -/
def then? (g : SequenceGrammar) (place : Nat) (terminal : String) (value : ν) (length : Nat)
    (route : Route ν) : Option (Route ν) :=
  (g.target? route.state terminal).map fun state =>
    ⟨route.offers ++ [place], route.position + length, state, route.path ++ [(terminal, value)]⟩

/-- **The routes through a log**: the one without offers, and each that goes on from one with an
offer that was made at the position where it ends. -/
inductive Through (g : SequenceGrammar) (log : List (RecognizerEvent ν)) : Route ν → Prop
  /-- No offers. -/
  | start : Through g log (start g)
  /-- One more offer. -/
  | step {route route' : Route ν} {place length : Nat} {terminal : String} {value : ν} :
    Through g log route → log[place]? = some (.alternative terminal value length) →
    positionAfter (log.take place) = route.position →
    route.then? g place terminal value length = some route' → Through g log route'

/-- **The item of a route.** -/
def item (route : Route ν) : SequenceItem ν :=
  ⟨route.position, route.state, route.path.reverse⟩

@[simp] theorem path_item (route : Route ν) : route.item.path = route.path :=
  List.reverse_reverse _

/-- **The routes through a log that have some property**, each once. -/
structure Listed (g : SequenceGrammar) (log : List (RecognizerEvent ν)) (p : Route ν → Prop)
    (routes : List (Route ν)) : Prop where
  /-- No two of them consist of the same offers. -/
  nodup : (routes.map offers).Nodup
  /-- They are all of them. -/
  mem_iff : ∀ route, route ∈ routes ↔ route.Through g log ∧ p route

variable {g : SequenceGrammar} {log : List (RecognizerEvent ν)} {route route' : Route ν}
  {place length : Nat} {terminal : String} {value : ν}

/-- What a route looks like that goes on from another. -/
theorem then?_eq_some (h : route.then? g place terminal value length = some route') :
    ∃ state, g.target? route.state terminal = some state
      ∧ route' = ⟨route.offers ++ [place], route.position + length, state,
        route.path ++ [(terminal, value)]⟩ := by
  obtain ⟨state, hstate, rfl⟩ := Option.map_eq_some_iff.mp h
  exact ⟨state, hstate, rfl⟩

/-- A token leads from the item of a route to the item of the route that goes on with it. -/
theorem follow_item (route : Route ν) :
    SequenceState.follow g terminal value length route.item
      = (route.then? g place terminal value length).map item := by
  unfold SequenceState.follow then?
  rw [Option.map_map]
  refine congrArg (Option.map · _) (funext fun state => ?_)
  show SequenceItem.mk _ _ _ = SequenceItem.mk _ _ _
  simp [item]

namespace Through

/-- A route uses offers of the log. -/
theorem lt_length (h : route.Through g log) : ∀ place ∈ route.offers, place < log.length := by
  induction h with
  | start => simp [Route.start]
  | step _ hevent _ hthen ih =>
    obtain ⟨state, -, rfl⟩ := then?_eq_some hthen
    intro place hplace
    rcases List.mem_append.mp hplace with hbefore | hlast
    · exact ih place hbefore
    · rw [List.mem_singleton.mp hlast]
      exact (List.getElem?_eq_some_iff.mp hevent).1

/-- A route through a log is one through any longer log. -/
theorem append (h : route.Through g log) (more : List (RecognizerEvent ν)) :
    route.Through g (log ++ more) := by
  induction h with
  | start => exact .start
  | @step route route' place length terminal value _ hevent hposition hthen ih =>
    have hlt := (List.getElem?_eq_some_iff.mp hevent).1
    refine .step ih ?_ ?_ hthen
    · rw [List.getElem?_append_left hlt, hevent]
    · rw [List.take_append_of_le_length (Nat.le_of_lt hlt), hposition]

/-- **A position that is completed adds no route.** -/
theorem snoc_completed_iff {number : Nat} :
    route.Through g (log ++ [.completed number]) ↔ route.Through g log := by
  refine ⟨fun h => ?_, fun h => h.append _⟩
  induction h with
  | start => exact .start
  | @step route route' place length terminal value _ hevent hposition hthen ih =>
    rcases Nat.lt_or_ge place log.length with hlt | hge
    · rw [List.getElem?_append_left hlt] at hevent
      rw [List.take_append_of_le_length (Nat.le_of_lt hlt)] at hposition
      exact .step ih hevent hposition hthen
    · -- the event at the end is not an offer
      rw [List.getElem?_append_right hge] at hevent
      cases List.mem_singleton.mp (List.mem_of_getElem? hevent)

/-- **An offer adds the routes that go on with it** from the current position, and no others. A
token has a length, so no route can go on behind it yet. -/
theorem snoc_alternative_iff (hlength : 0 < length) :
    route'.Through g (log ++ [.alternative terminal value length])
      ↔ route'.Through g log
        ∨ ∃ route : Route ν, route.Through g log ∧ route.position = positionAfter log
          ∧ route.then? g log.length terminal value length = some route' := by
  constructor
  · intro h
    induction h with
    | start => exact .inl .start
    | @step route route' place length' terminal' value' _ hevent hposition hthen ih =>
      rw [positionAfter_take_alternative] at hposition
      rcases ih with hroute | ⟨before, -, hbefore, hthen'⟩
      · rcases Nat.lt_or_ge place log.length with hlt | hge
        · rw [List.getElem?_append_left hlt] at hevent
          exact .inl (.step hroute hevent hposition hthen)
        · have hplace : place = log.length := by
            have := (List.getElem?_eq_some_iff.mp hevent).1
            simp at this
            omega
          rw [hplace, List.getElem?_concat_length] at hevent
          rw [hplace, List.take_length] at hposition
          cases hevent
          rw [hplace] at hthen
          exact .inr ⟨route, hroute, hposition.symm, hthen⟩
      · -- this would be an offer at a position that is not reached yet
        obtain ⟨state, -, rfl⟩ := then?_eq_some hthen'
        have hle := positionAfter_take_le log place
        rw [hposition, ← hbefore] at hle
        change before.position + length ≤ before.position at hle
        omega
  · rintro (h | ⟨route, hroute, hposition, hthen⟩)
    · exact h.append _
    · refine .step (hroute.append _) (List.getElem?_concat_length ..) ?_ hthen
      rw [List.take_left, hposition]

end Through

/-- **The routes that go on with an offer** at a position, of a list of routes. -/
def goOn (g : SequenceGrammar) (place : Nat) (terminal : String) (value : ν) (length position : Nat)
    (routes : List (Route ν)) : List (Route ν) :=
  (routes.filter fun route => route.position = position).filterMap
    (then? g place terminal value length)

theorem mem_goOn {position : Nat} {routes : List (Route ν)} :
    route' ∈ goOn g place terminal value length position routes
      ↔ ∃ route ∈ routes, route.position = position
        ∧ route.then? g place terminal value length = some route' := by
  simp [goOn, and_assoc]

/-- Different offers go on to different offers. -/
theorem nodup_goOn {position : Nat} {routes : List (Route ν)}
    (h : (routes.map Route.offers).Nodup) :
    ((goOn g place terminal value length position routes).map Route.offers).Nodup := by
  refine List.pairwise_map.mpr (List.pairwise_filterMap.mpr ?_)
  refine ((List.pairwise_map.mp h).sublist List.filter_sublist).imp ?_
  intro route₁ route₂ hne route₁' hthen₁ route₂' hthen₂ heq
  obtain ⟨_, -, rfl⟩ := then?_eq_some hthen₁
  obtain ⟨_, -, rfl⟩ := then?_eq_some hthen₂
  exact hne (List.append_inj' heq rfl).1

end Route

/-! ## Items and routes -/

/-- **The items of a recognizer are those of the routes through its log**, each route once. -/
structure Routed (g : SequenceGrammar) (s : SequenceState ν) (routes : List (Route ν)) : Prop where
  /-- The items are those of the routes. -/
  items_eq : s.items = routes.map Route.item
  /-- No route is listed twice. -/
  nodup : (routes.map Route.offers).Nodup
  /-- The routes are those through the log. -/
  mem_iff : ∀ route, route ∈ routes ↔ route.Through g s.log.toList
  /-- The position is the one after the log. -/
  position_eq : s.position = positionAfter s.log.toList

namespace Routed

variable {g : SequenceGrammar} {s : SequenceState ν} {routes : List (Route ν)}

/-- At the start there is the route without offers. -/
theorem initial (g : SequenceGrammar) :
    Routed g (.initial g : SequenceState ν) [Route.start g] := by
  refine ⟨rfl, List.pairwise_singleton _ _, fun route => ?_, rfl⟩
  rw [List.mem_singleton]
  constructor
  · rintro rfl
    exact .start
  · intro h
    cases h with
    | start => rfl
    | step _ hevent _ _ => cases hevent

/-- **The items at a position** are those of the routes that end there. -/
theorem itemsAt_eq (h : Routed g s routes) (position : Nat) :
    s.itemsAt position
      = (routes.filter fun route => route.position = position).map Route.item := by
  unfold SequenceState.itemsAt
  rw [h.items_eq, List.filter_map]
  refine congrArg _ (List.filter_congr fun route _ => ?_)
  exact decide_eq_decide.mpr Int.ofNat_inj

/-- **A token that is offered adds an item for each route that goes on with it.** -/
theorem offer (h : Routed g s routes) {length : Nat} (hlength : 0 < length) (terminal : String)
    (value : ν) :
    Routed g (s.offer g terminal value length)
      (routes ++ Route.goOn g s.log.size terminal value length s.position routes) := by
  have hlog : (s.offer g terminal value length).log.toList
      = s.log.toList ++ [.alternative terminal value length] := Array.toList_push
  refine ⟨?_, ?_, fun route' => ?_, ?_⟩
  · show s.items ++ SequenceState.reach g terminal value length (s.itemsAt s.position) = _
    rw [SequenceState.reach_of_ne_zero (by omega), h.itemsAt_eq, List.filterMap_map,
      List.map_append, ← h.items_eq, Route.goOn, List.map_filterMap]
    exact congrArg (s.items ++ List.filterMap · _) (funext fun route => route.follow_item)
  · rw [List.map_append]
    refine List.nodup_append.mpr ⟨h.nodup, Route.nodup_goOn h.nodup, ?_⟩
    -- the routes listed before do not use an offer that was not made yet
    rintro _ hold _ hnew rfl
    obtain ⟨route, hroute, hoffers⟩ := List.mem_map.mp hold
    obtain ⟨route', hroute', rfl⟩ := List.mem_map.mp hnew
    obtain ⟨before, -, -, hthen⟩ := Route.mem_goOn.mp hroute'
    obtain ⟨state, -, rfl⟩ := Route.then?_eq_some hthen
    have hlt := ((h.mem_iff route).mp hroute).lt_length s.log.size
    rw [hoffers, Array.length_toList] at hlt
    exact Nat.lt_irrefl _ (hlt (List.mem_append_right _ List.mem_cons_self))
  · rw [hlog, List.mem_append, Route.mem_goOn, Route.Through.snoc_alternative_iff hlength,
      ← h.position_eq, Array.length_toList]
    simp only [h.mem_iff]
  · rw [hlog, positionAfter_append, ← h.position_eq]
    rfl

/-- **The routes with some property**, each once. -/
theorem listed (h : Routed g s routes) (p : Route ν → Prop) [DecidablePred p] :
    Route.Listed g s.log.toList p (routes.filter fun route => p route) := by
  refine ⟨h.nodup.sublist (List.filter_sublist.map _), fun route => ?_⟩
  rw [List.mem_filter, h.mem_iff, decide_eq_true_iff]

/-- **The parses** are the paths of the routes that end at the position in an accepting state. -/
theorem parses_eq (h : Routed g s routes) :
    s.parses g = (routes.filter fun route =>
      route.position = s.position ∧ route.state ∈ g.accepting).map Route.path := by
  have hfilter : (routes.filter fun route => route.position = s.position).filter
        ((fun item : SequenceItem ν => g.accepting.contains item.state) ∘ Route.item)
      = routes.filter fun route => route.position = s.position ∧ route.state ∈ g.accepting := by
    rw [List.filter_filter]
    refine List.filter_congr fun route _ => ?_
    show (g.accepting.contains route.state && decide (route.position = _)) = decide (_ ∧ _)
    rw [Bool.and_comm, List.contains_eq_mem, Bool.decide_and]
  unfold SequenceState.parses SequenceState.current
  rw [h.itemsAt_eq, List.filter_map, hfilter, List.map_map]
  exact List.map_congr_left fun route _ => route.path_item

/-- **Where more is needed a route ends behind the position.** -/
theorem exists_ahead (h : Routed g s routes) {advance : Advance} (hsaid : s.Says g advance)
    (hkind : advance.kind = .moreNeeded) :
    ∃ route : Route ν, route.Through g s.log.toList ∧ s.position < route.position := by
  obtain ⟨item, hitem, hahead⟩ := List.any_eq_true.mp (hsaid.of_moreNeeded hkind).2
  rw [h.items_eq] at hitem
  obtain ⟨route, hroute, rfl⟩ := List.mem_map.mp hitem
  exact ⟨route, (h.mem_iff route).mp hroute, Int.ofNat_lt.mp (of_decide_eq_true hahead)⟩

/-- **Where the parse fails all routes end before the position.** -/
theorem all_behind (h : Routed g s routes) {advance : Advance} (hsaid : s.Says g advance)
    (hkind : advance.kind = .failure) (route : Route ν) (hroute : route.Through g s.log.toList) :
    route.position < s.position := by
  have hitem : route.item ∈ s.items := by
    rw [h.items_eq]
    exact List.mem_map_of_mem ((h.mem_iff route).mpr hroute)
  cases hsaid with
  | failure current pending =>
    exact Int.ofNat_lt.mp (SequenceState.lt_position_of_failure current pending _ hitem)
  | _ => cases hkind

/-- **Completing a position adds nothing.** -/
theorem complete (h : Routed g s routes) : Routed g (s.complete g).2 routes := by
  have hlog : (s.complete g).2.log.toList = s.log.toList ++ [.completed s.position] :=
    Array.toList_push
  refine ⟨h.items_eq, h.nodup, fun route => ?_, ?_⟩
  · rw [hlog, Route.Through.snoc_completed_iff]
    exact h.mem_iff route
  · rw [hlog, positionAfter_append, ← h.position_eq]
    rfl

/-- **Dealing with requests keeps an item for each route**, as long as the tokens that are offered
have a length. -/
theorem replies (h : Routed g s routes) (requests : List (Request ν))
    (hlength : ∀ terminal value length, .offer terminal value length ∈ requests → 0 < length) :
    ∃ routes', Routed g ((g.recognizer ν).replies requests s).2 routes' := by
  induction requests generalizing s routes with
  | nil => exact ⟨routes, h⟩
  | cons request requests ih =>
    have hrest : ∀ terminal value length, .offer terminal value length ∈ requests → 0 < length :=
      fun terminal value length hmem =>
        hlength terminal value length (List.mem_cons_of_mem _ hmem)
    cases request with
    | expect => exact ih h hrest
    | offer terminal value length =>
      have hpos := hlength terminal value length List.mem_cons_self
      obtain ⟨length, rfl⟩ := Int.eq_ofNat_of_zero_le (Int.le_of_lt hpos)
      exact ih (h.offer (Int.natCast_pos.mp hpos) terminal value) hrest
    | complete => exact ih h.complete hrest
    | exhausted => exact ih h hrest

end Routed

namespace SequenceGrammar

/-- **A recognizer logs its requests.** -/
theorem log_replies (g : SequenceGrammar) (requests : List (Request ν))
    (s : SequenceState ν) :
    ((g.recognizer ν).replies requests s).2.log.toList
      = s.log.toList ++ Request.log s.position requests := by
  induction requests generalizing s with
  | nil => exact (List.append_nil _).symm
  | cons request requests ih =>
    cases request with
    | expect => exact ih s
    | offer terminal value length =>
      refine (ih (s.offer g terminal value length)).trans ?_
      show (s.log.push (.alternative terminal value length)).toList ++ _ = _
      rw [Array.toList_push, List.append_assoc]
      rfl
    | complete =>
      refine (ih (s.complete g).2).trans ?_
      show (s.log.push (.completed s.position)).toList ++ _ = _
      rw [Array.toList_push, List.append_assoc]
      rfl
    | exhausted => exact ih s

/-- **The items of a recognizer are the routes through its log.** Whatever is requested, as long as
the tokens that are offered have a length, there is one item at a position for each route that ends
there, with the state it leads to and the tokens on its way. So the parses are those of the routes
that end at the current position in an accepting state. When a position is completed, more is needed
only if a route ends behind the new position, and the parse fails only if none ends at it or
behind. -/
theorem items_eq_routes {g : SequenceGrammar} {requests : List (Request ν)}
    (hlength : ∀ terminal value length, .offer terminal value length ∈ requests → 0 < length)
    {s : SequenceState ν} (hs : ((g.recognizer ν).replies requests (.initial g)).2 = s) :
    s.log.toList = Request.log 0 requests
      ∧ s.position = positionAfter s.log.toList
      ∧ (∀ position : Nat, ∃ routes,
        Route.Listed g s.log.toList (fun route => route.position = position) routes
          ∧ s.itemsAt position = routes.map Route.item)
      ∧ (∃ routes,
        Route.Listed g s.log.toList
            (fun route => route.position = s.position ∧ route.state ∈ g.accepting) routes
          ∧ s.parses g = routes.map Route.path)
      ∧ ∀ advance s', (g.recognizer ν).completePosition s = .ok advance s' →
        (advance.kind = .moreNeeded →
          ∃ route : Route ν, route.Through g s'.log.toList ∧ s'.position < route.position)
        ∧ (advance.kind = .failure →
          ∀ route : Route ν, route.Through g s'.log.toList → route.position < s'.position) := by
  obtain ⟨routes, h⟩ := (Routed.initial g).replies requests hlength
  have hlog := g.log_replies requests (.initial g)
  rw [hs] at h hlog
  refine ⟨hlog, h.position_eq, fun position => ?_, ?_, fun advance s' hcomplete => ?_⟩
  · exact ⟨_, h.listed fun route => route.position = position, h.itemsAt_eq position⟩
  · exact ⟨_, h.listed fun route => route.position = s.position ∧ route.state ∈ g.accepting,
      h.parses_eq⟩
  · obtain ⟨hsaid, -⟩ := SequenceState.said_of_complete hcomplete
    have h' : Routed g s' routes := by
      cases hcomplete
      exact h.complete
    exact ⟨h'.exists_ahead hsaid, h'.all_behind hsaid⟩

/-- The letters of `Beyond.grammar`, with two readings of the first one, up to the end. -/
def Beyond.readings : List (Request String) :=
  [.offer "a" "x" 1, .offer "a" "y" 1, .offer "ab" "xy" 2, .offer "c" "x" 1, .complete,
    .offer "b" "z" 1, .complete]

/-- Two offers of one terminal at one position are two routes, and the terminal without a target
leads nowhere. -/
theorem items_eq_routes_readings :
    (∀ terminal value length, .offer terminal value length ∈ Beyond.readings → 0 < length)
      ∧ ∃ routes, Route.Listed Beyond.grammar (Request.log 0 Beyond.readings)
          (fun route => route.position = 2 ∧ route.state ∈ Beyond.grammar.accepting) routes
        ∧ routes.map Route.path
          = [[("ab", "xy")], [("a", "x"), ("b", "z")], [("a", "y"), ("b", "z")]] := by
  have hlength : ∀ terminal value length,
      .offer terminal value length ∈ Beyond.readings → 0 < length := by
    intro terminal value length hmem
    simp [Beyond.readings] at hmem
    omega
  obtain ⟨-, -, -, ⟨routes, hlisted, hparses⟩, -⟩ :=
    items_eq_routes (g := Beyond.grammar) hlength rfl
  exact ⟨hlength, routes, hlisted, hparses.symm.trans rfl⟩

end SequenceGrammar

end AmbiLex
