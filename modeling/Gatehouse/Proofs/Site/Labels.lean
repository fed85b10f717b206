import Gatehouse.Proofs.Site.Accounts
import Mathlib.Data.Finite.Prod
import Mathlib.Order.Interval.Finset.Nat

/-!
# How many measurements are kept apart

Every request is measured under three labels: the endpoint, the method and the status. Whoever keeps
the measurements keeps one series of them for each triple, so the triples should be few, whatever
clients send. Of the three, the endpoint is one of seven, since a request that goes to no route is
measured as such and not under its path; and there are nine hundred statuses. The method is as the
client has sent it.

So **`bounded_labels_iff`**: the triples of any collection of requests are finitely many exactly if
their methods are. There is no bound for all requests, since a method may be any token:
`unbounded_labels`.
-/

namespace Gatehouse

/-- The labels of the measurements in a journal. -/
def Journal.measured (j : Journal) : List (List (String × String)) :=
  (j.countsOf "edge_request_duration_seconds").map Metric.labels

namespace Site

/-- What requests may be measured as: the paths of the routes, and one name for all other paths. -/
def endpoints : List String := Service.unmatchedEndpoint :: Route.all.map Route.path

/-- The labels of a measurement. -/
def labelled (endpoint method : String) (status : Nat) : List (String × String) :=
  [("endpoint", endpoint), ("method", method), ("status", status.repr)]

section

variable {σ : Type} [CounterStore σ] [CacheStore σ]

/-- The labels under which requests of a kind may be measured: in all surroundings, and in all
states that a store of some sort can be in. -/
def labels (σ : Type) [CounterStore σ] [CacheStore σ] (site : Site) (requests : Set Request) :
    Set (List (String × String)) :=
  {l | ∃ req ∈ requests, ∃ (around : Surroundings) (w : World σ) (notes : Journal),
    (site.answer around req w).2.journal = w.journal ++ notes ∧ l ∈ notes.measured}

/-! ## One request -/

theorem getD_route_routed {req : Request} (hnew : req.route = none) :
    (routed req).route.getD Service.unmatchedEndpoint ∈ endpoints := by
  rw [routed, endpoints]
  split
  · rename_i r _
    have hall : r ∈ Route.all := by cases r <;> decide
    exact List.mem_cons_of_mem _ (List.mem_map_of_mem hall)
  · rw [hnew]
    exact List.mem_cons_self

/-- A request is measured once, under the method that the client has sent. -/
theorem exists_measured_answer (site : Site) (around : Surroundings) {req : Request}
    (hnew : req.route = none) (w : World σ) :
    ∃ (notes : Journal), ∃ endpoint ∈ endpoints, ∃ status ∈ Set.Icc 100 999,
      (site.answer around req w).2.journal = w.journal ++ notes ∧
        notes.measured = [labelled endpoint req.method.name status] := by
  obtain ⟨notes, hnotes, haccounts⟩ := site.exists_accounts_answer around req w
  obtain ⟨elapsed, hmeasured⟩ := haccounts.measured
  have hroute : (site.known around req w).route = (routed req).route := rfl
  have hmethod : (site.known around req w).method = req.method := by
    rw [known, routed]
    split <;> rfl
  refine ⟨notes, _, getD_route_routed hnew, _, (site.answer around req w).1.status.valid, hnotes,
    ?_⟩
  rw [Journal.measured, hmeasured, hroute, hmethod]
  rfl

theorem exists_labelled_of_mem_labels {site : Site} {requests : Set Request}
    (hnew : ∀ req ∈ requests, req.route = none) {l : List (String × String)}
    (hl : l ∈ site.labels σ requests) : ∃ req ∈ requests, ∃ endpoint ∈ endpoints,
      ∃ status ∈ Set.Icc 100 999, l = labelled endpoint req.method.name status := by
  obtain ⟨req, hreq, around, w, notes, hnotes, hl⟩ := hl
  obtain ⟨notes', endpoint, hendpoint, status, hstatus, hnotes', hmeasured⟩ :=
    site.exists_measured_answer around (hnew req hreq) w
  obtain rfl := List.append_cancel_left (hnotes.symm.trans hnotes')
  rw [hmeasured] at hl
  exact ⟨req, hreq, endpoint, hendpoint, status, hstatus, List.mem_singleton.mp hl⟩

/-! ## Many requests -/

/-- The names of the methods of requests. -/
def methodNames (requests : Set Request) : Set String := (fun req ↦ req.method.name) '' requests

/-- The method among labels. -/
def methodOf (l : List (String × String)) : String := (l.lookup "method").getD ""

theorem methodOf_labelled (endpoint method : String) (status : Nat) :
    methodOf (labelled endpoint method status) = method := rfl

theorem finite_labels (site : Site) {requests : Set Request}
    (hnew : ∀ req ∈ requests, req.route = none) (h : (methodNames requests).Finite) :
    (site.labels σ requests).Finite := by
  let triples : Set (String × String × Nat) :=
    {e | e ∈ endpoints} ×ˢ methodNames requests ×ˢ Set.Icc 100 999
  have htriples : triples.Finite :=
    Set.Finite.prod (List.finite_toSet endpoints) (Set.Finite.prod h (Set.finite_Icc 100 999))
  refine (htriples.image fun t ↦ labelled t.1 t.2.1 t.2.2).subset fun l hl ↦ ?_
  obtain ⟨req, hreq, endpoint, hendpoint, status, hstatus, rfl⟩ :=
    exists_labelled_of_mem_labels hnew hl
  exact ⟨(endpoint, req.method.name, status), ⟨hendpoint, ⟨req, hreq, rfl⟩, hstatus⟩, rfl⟩

/-- Every method is among the labels of the request that was sent with it. -/
theorem methodNames_subset [Nonempty σ] (site : Site) {requests : Set Request}
    (hnew : ∀ req ∈ requests, req.route = none) :
    methodNames requests ⊆ methodOf '' site.labels σ requests := by
  rintro name ⟨req, hreq, rfl⟩
  obtain ⟨store⟩ := ‹Nonempty σ›
  let around : Surroundings := ⟨fun _ _ ↦ .error .expired, fun id ↦ .error (.notFound id), id⟩
  obtain ⟨notes, endpoint, -, status, -, hnotes, hmeasured⟩ :=
    site.exists_measured_answer around (hnew req hreq) (World.start store 0)
  refine ⟨labelled endpoint req.method.name status, ?_, methodOf_labelled _ _ _⟩
  exact ⟨req, hreq, around, _, notes, hnotes, hmeasured ▸ List.mem_singleton_self _⟩

theorem finite_labels_iff [Nonempty σ] (site : Site) {requests : Set Request}
    (hnew : ∀ req ∈ requests, req.route = none) :
    (site.labels σ requests).Finite ↔ (methodNames requests).Finite :=
  ⟨fun h ↦ (h.image methodOf).subset (methodNames_subset site hnew), finite_labels site hnew⟩

/-- **The triples are as many as the methods**: each request is measured once, under one of seven
endpoints, the method that it was sent with and one of nine hundred statuses; and of any requests,
the triples are finitely many exactly if the methods are. -/
theorem bounded_labels_iff [Nonempty σ] (site : Site) (requests : Set Request)
    (hnew : ∀ req ∈ requests, req.route = none) :
    (∀ req ∈ requests, ∀ (around : Surroundings) (w : World σ), ∃ notes : Journal,
      ∃ endpoint ∈ endpoints, ∃ status ∈ Set.Icc 100 999,
        (site.answer around req w).2.journal = w.journal ++ notes ∧
          notes.measured = [labelled endpoint req.method.name status]) ∧
      ((site.labels σ requests).Finite ↔ (methodNames requests).Finite) :=
  ⟨fun req hreq around w ↦ site.exists_measured_answer around (hnew req hreq) w,
    finite_labels_iff site hnew⟩

end

/-- Of requests that have a method that some route serves there are finitely many triples. -/
theorem bounded_labels_iff_served :
    let site : Site := ⟨{ Settings.default with limit := 0 }, 0, none⟩
    let requests : Set Request := {req | req.route = none ∧ ∃ r : Route, r.serves req.method = true}
    (∀ req ∈ requests, req.route = none) ∧ (site.labels MemoryStore requests).Finite := by
  intro site requests
  have hnew : ∀ req ∈ requests, req.route = none := fun req hreq ↦ hreq.1
  have hserved : ∀ r : Route, ∀ m ∈ r.methods, m.name ∈ ["GET", "HEAD", "POST"] := by
    intro r
    cases r <;> decide
  have hnames : methodNames requests ⊆ {name | name ∈ ["GET", "HEAD", "POST"]} := by
    rintro name ⟨req, ⟨-, r, hserves⟩, rfl⟩
    exact hserved r req.method (List.contains_iff_mem.mp hserves)
  have : Nonempty MemoryStore := ⟨MemoryStore.new 0⟩
  exact ⟨hnew, (bounded_labels_iff site requests hnew).2.mpr
    ((List.finite_toSet _).subset hnames)⟩

/-! ## All requests -/

/-- A method that somebody made up. -/
def madeUp (n : Nat) : Http.Method where
  name := String.ofList (List.replicate (n + 1) 'X')
  isToken := by
    have hchar : Http.isTokenChar 'X' = true := by decide
    simp [Http.isToken, hchar]

theorem madeUp_name_injective : Function.Injective fun n ↦ (madeUp n).name := fun m n h ↦ by
  have hlength := congrArg String.length h
  simpa [madeUp] using hlength

/-- Requests as clients send them, before they have a route. -/
def incoming : Set Request := {req | req.route = none}

theorem infinite_methodNames_incoming : (methodNames incoming).Infinite := by
  refine (Set.infinite_range_of_injective madeUp_name_injective).mono ?_
  rintro name ⟨n, rfl⟩
  exact ⟨⟨madeUp n, ⟨"/health", none⟩, [], none, none, none, none⟩, rfl, rfl⟩

theorem infinite_labels_incoming (σ : Type) [CounterStore σ] [CacheStore σ] [Nonempty σ]
    (site : Site) : (site.labels σ incoming).Infinite := fun h ↦
  infinite_methodNames_incoming ((finite_labels_iff site fun _ hreq ↦ hreq).mp h)

/-- No finite set of triples is enough for all requests: with the settings of a site about which
nothing is said, requests for `/health` with the methods `X`, `XX`, `XXX` and so on are all measured
under triples of their own. -/
theorem unbounded_labels :
    ∃ site, Site.start Settings.default 0 = .ok site ∧
      ¬ ∃ triples : Set (List (String × String)), triples.Finite ∧
        ∀ (req : Request) (around : Surroundings) (w : World MemoryStore) (notes : Journal),
          req.route = none → (site.answer around req w).2.journal = w.journal ++ notes →
            ∀ l ∈ notes.measured, l ∈ triples := by
  obtain ⟨site, hsite⟩ : ∃ site, Site.start Settings.default 0 = .ok site := ⟨_, rfl⟩
  refine ⟨site, hsite, ?_⟩
  rintro ⟨triples, hfinite, hall⟩
  have : Nonempty MemoryStore := ⟨MemoryStore.new 0⟩
  refine infinite_labels_incoming MemoryStore site (hfinite.subset ?_)
  rintro l ⟨req, hreq, around, w, notes, hnotes, hl⟩
  exact hall req around w notes hreq hnotes l hl

end Site

end Gatehouse
