import Turnstile.Proofs.Meaning.Engine
import Turnstile.Proofs.Request.Turns
import Turnstile.Proofs.Router.Segments

/-!
# Routers in routers

A route can lead to another router, and so on to any depth: routers make up a tree with steps at
its leaves. A path is led down this tree. At each router the first route that matches is taken and
what is left of the path is handed on, until a step is reached or no route matches; then the
routers above are not asked again.

The relation `Leads` says so, with the routes taken, and every tree leads every path somewhere, in
one way. A turn of a request asks one router. What the tree means is what the step means that it
leads to, under the path that is left, and what comes behind the outermost router comes behind that
step.

## Code behind a route

A route can also lead to code that makes a step, or another router, when it is run, and may do
anything else (`callFirst`, `Nest.callDown`). Then the code of the routes taken is run, from the
outermost to the innermost, and no other.
-/

namespace Turnstile

namespace Router

variable {k : Kind} {path rest front : String}

/-- None of the routes matches the path. -/
def Skips {α : Type} (path : String) (routes : List (String × α)) : Prop :=
  ∀ route ∈ routes, strip? path route.1 = none

theorem Skips.map {α β : Type} {routes : List (String × α)} (skips : Skips path routes)
    (f : String × α → β) : Skips path (routes.map fun route ↦ (route.1, f route)) := by
  intro route hroute
  obtain ⟨route, hmem, rfl⟩ := List.mem_map.mp hroute
  exact skips route hmem

/-! ## Routes that lead to code -/

section Code

variable {P : Type} {m : Type → Type} [Monad m] {before after routes : List (String × m P)}
  {handler : m P}

/-- The first of some routes that matches a path, where the routes lead to code that makes
something to go on with when it is run. -/
def callFirst (path : String) : List (String × m P) → m (RouteMatch P)
  | [] => pure .miss
  | (front, handler) :: routes =>
    match strip? path front with
    | some rest => do return .hit rest (← handler)
    | none => callFirst path routes

/-- Routes that do not match are passed over, and their code is not run. -/
theorem callFirst_append (h : Skips path before) :
    callFirst path (before ++ routes) = callFirst path routes := by
  induction before with
  | nil => rfl
  | cons route before ih =>
    rw [Skips, List.forall_mem_cons] at h
    rw [List.cons_append, callFirst, h.1]
    exact ih h.2

theorem callFirst_of_skips (h : Skips path routes) : callFirst path routes = pure .miss := by
  have happend : callFirst path (routes ++ []) = callFirst path [] := callFirst_append h
  rwa [List.append_nil] at happend

theorem callFirst_of_hit (h : Skips path before) (hit : strip? path front = some rest) :
    callFirst path (before ++ (front, handler) :: after) =
      do return .hit rest (← handler) := by
  rw [callFirst_append h, callFirst, hit]

end Code

/-! ## Trees of routers -/

/-- What a route leads to: a step, or another router. -/
inductive Nest (k : Kind) where
  /-- A step. -/
  | step (s : Step k)
  /-- A router with these routes. -/
  | router (routes : List (String × Nest k))

namespace Nest

variable {nest : Nest k} {routes before after taken : List (String × Nest k)}
  {step? : Option (Step k)}

mutual

/-- The step that dispatches on the path not consumed yet, down to the leaves. -/
def toStep : Nest k → Step k
  | .step s => s
  | .router routes => (Router.ofList (toSteps routes)).toStep

/-- Routes with the steps that they lead to. -/
def toSteps : List (String × Nest k) → List (String × Step k)
  | [] => []
  | (front, nest) :: routes => (front, nest.toStep) :: toSteps routes

end

/-- The tree leads the path by these routes to a step, or to none if no route matched at the last
router, and this is left of the path. -/
inductive Leads : Nest k → String → List (String × Nest k) → String → Option (Step k) → Prop where
  /-- There is a step. -/
  | step (s : Step k) (path : String) : Leads (.step s) path [] path (some s)
  /-- No route matches. -/
  | miss {routes : List (String × Nest k)} {path : String} (skips : Skips path routes) :
    Leads (.router routes) path [] path none
  /-- The first route that matches is taken. -/
  | take {before after taken : List (String × Nest k)} {front path middle rest : String}
    {nest : Nest k} {step? : Option (Step k)} (skips : Skips path before)
    (hit : strip? path front = some middle) (inner : Leads nest middle taken rest step?) :
    Leads (.router (before ++ (front, nest) :: after)) path ((front, nest) :: taken) rest step?

mutual

theorem exists_leads : ∀ (nest : Nest k) (path : String),
    ∃ taken rest step?, nest.Leads path taken rest step?
  | .step s, path => ⟨[], path, some s, .step s path⟩
  | .router routes, path => by
    rcases skips_or_exists_leads routes path with skips |
      ⟨before, front, nest, after, middle, rfl, skips, hit, taken, rest, step?, inner⟩
    · exact ⟨[], path, none, .miss skips⟩
    · exact ⟨_, rest, step?, .take skips hit inner⟩

theorem skips_or_exists_leads : ∀ (routes : List (String × Nest k)) (path : String),
    Skips path routes ∨ ∃ (before : List (String × Nest k)) (front : String) (nest : Nest k)
      (after : List (String × Nest k)) (middle : String),
      routes = before ++ (front, nest) :: after ∧ Skips path before ∧
      strip? path front = some middle ∧ ∃ taken rest step?, nest.Leads middle taken rest step?
  | [], _ => .inl (List.forall_mem_nil _)
  | (front, nest) :: routes, path => by
    cases hit : strip? path front with
    | some middle =>
      exact .inr ⟨[], front, nest, routes, middle, rfl, List.forall_mem_nil _, hit,
        exists_leads nest middle⟩
    | none =>
      rcases skips_or_exists_leads routes path with skips |
        ⟨before, front', nest', after, middle, rfl, skips, found⟩
      · exact .inl (List.forall_mem_cons.mpr ⟨hit, skips⟩)
      · exact .inr ⟨(front, nest) :: before, front', nest', after, middle, rfl,
          List.forall_mem_cons.mpr ⟨hit, skips⟩, found⟩

end

theorem find?_of_hit (skips : Skips path before) (hit : strip? path front = some rest) :
    (before ++ (front, nest) :: after).find? (fun route ↦ (strip? path route.1).isSome) =
      some (front, nest) := by
  rw [List.find?_eq_some_iff_append]
  refine ⟨by simp [hit], before, after, rfl, fun route hroute ↦ ?_⟩
  simp [skips route hroute]

/-- No path is led to two places, or to one in two ways. -/
theorem Leads.unique {taken' : List (String × Nest k)} {rest' : String}
    {step?' : Option (Step k)} (h : nest.Leads path taken rest step?)
    (h' : nest.Leads path taken' rest' step?') :
    taken' = taken ∧ rest' = rest ∧ step?' = step? := by
  induction h generalizing taken' with
  | step s path =>
    cases h'
    exact ⟨rfl, rfl, rfl⟩
  | @miss routes path skips =>
    generalize hnest : Nest.router routes = nest at h'
    cases h' with
    | step => cases hnest
    | miss => exact ⟨rfl, rfl, rfl⟩
    | take _ hit =>
      cases hnest
      cases (skips _ (List.mem_append_right _ List.mem_cons_self)).symm.trans hit
  | @take before after taken front path middle rest nest step? skips hit _ ih =>
    generalize hnest : Nest.router (before ++ (front, nest) :: after) = whole at h'
    cases h' with
    | step => cases hnest
    | miss none =>
      cases hnest
      cases (none _ (List.mem_append_right _ List.mem_cons_self)).symm.trans hit
    | take skips' hit' inner' =>
      have hfind : (before ++ (front, nest) :: after).find?
          (fun route ↦ (strip? path route.1).isSome) = some (front, nest) := find?_of_hit skips hit
      rw [Nest.router.inj hnest, find?_of_hit skips' hit', Option.some.injEq] at hfind
      cases hfind
      cases hit.symm.trans hit'
      obtain ⟨rfl, hsame⟩ := ih inner'
      exact ⟨rfl, hsame⟩

/-- What is left is the path without the prefixes of the routes taken. -/
theorem Leads.path_eq (h : nest.Leads path taken rest step?) :
    path = String.join (taken.map fun route ↦ trim route.1) ++ rest := by
  induction h with
  | step s path => simp
  | miss skips => simp
  | take skips hit inner ih =>
    rw [(strip?_eq_some_iff.mp hit).1, ih, List.map_cons, String.join_cons, String.append_assoc]

/-! ## Trees whose routes lead to code -/

section Code

variable {m : Type → Type} [Monad m] (call : String × Nest k → m Unit)

mutual

/-- The way down, where a route leads to code that does `call` for it when it is taken. -/
def callDown : Nest k → String → m (String × Option (Step k))
  | .step s, path => pure (path, some s)
  | .router routes, path => callRoutes routes path

/-- The way down from one of some routes, or from none of them. -/
def callRoutes : List (String × Nest k) → String → m (String × Option (Step k))
  | [], path => pure (path, none)
  | (front, nest) :: routes, path =>
    match strip? path front with
    | some rest => do
      call (front, nest)
      callDown nest rest
    | none => callRoutes routes path

end

theorem callDown_router [LawfulMonad m] (routes : List (String × Nest k)) (path : String) :
    callDown call (.router routes) path = do
      match ← callFirst path (routes.map fun route ↦ (route.1, do call route; return route.2)) with
      | .hit rest nest => callDown call nest rest
      | _ => return (path, none) := by
  rw [callDown]
  induction routes with
  | nil => simp [callRoutes, callFirst]
  | cons route routes ih =>
    rw [callRoutes, List.map_cons, callFirst]
    cases strip? path route.1 with
    | some rest => simp
    | none => exact ih

/-- The code of the routes taken is run, from the outermost to the innermost, and no other. -/
theorem Leads.callDown [LawfulMonad m] (h : nest.Leads path taken rest step?) :
    nest.callDown call path = do
      for route in taken do call route
      return (rest, step?) := by
  induction h with
  | step s path => simp [Nest.callDown]
  | @miss routes path skips =>
    rw [callDown_router, callFirst_of_skips (skips.map _)]
    simp
  | @take before after taken front path middle rest nest step? skips hit _ ih =>
    rw [callDown_router, List.map_append, List.map_cons, callFirst_of_hit (skips.map _) hit]
    simp [ih]

end Code

/-! ## What a dispatch leads to -/

theorem toSteps_eq_map (routes : List (String × Nest k)) :
    toSteps routes = routes.map fun route ↦ (route.1, route.2.toStep) := by
  induction routes with
  | nil => rfl
  | cons route routes ih => rw [toSteps, ih, List.map_cons]

theorem findSome?_of_skips (skips : Skips path routes) :
    routes.findSome? (fun route ↦ (strip? path route.1).map fun rest ↦ (rest, route.2.toStep)) =
      none := by
  refine List.findSome?_eq_none_iff.mpr fun route hroute ↦ ?_
  rw [skips route hroute]
  rfl

theorem firstMatch_of_skips (skips : Skips path routes) :
    firstMatch (toSteps routes) path = .miss := by
  rw [firstMatch, toSteps_eq_map, List.findSome?_map]
  simp only [Function.comp_def, findSome?_of_skips skips]

theorem firstMatch_of_hit (skips : Skips path before) (hit : strip? path front = some rest) :
    firstMatch (toSteps (before ++ (front, nest) :: after)) path = .hit rest nest.toStep := by
  rw [firstMatch, toSteps_eq_map, List.findSome?_map]
  simp only [Function.comp_def, List.findSome?_append, findSome?_of_skips skips,
    List.findSome?_cons, hit, Option.none_or, Option.map_some]

theorem toStep_router (routes : List (String × Nest k)) :
    (Nest.router routes).toStep.program = .suspend (.routePath fun path ↦
      match firstMatch (toSteps routes) path with
      | .miss => .miss
      | .hit rest next => .hit rest next.program
      | .fault fault => .fault fault) := by
  rw [toStep, Router.toStep, ofList, Journal.toList_ofList]
  rfl

open Meaning (Terms State) in
/-- A tree means what the step means that it leads to, under the path that is left, or that nothing
was found. -/
theorem Leads.ofProgram (h : nest.Leads path taken rest step?) (t : Terms) {s : State}
    (hpath : s.dossier.path = path) :
    Meaning.ofProgram t nest.toStep.program s =
      let s := { s with dossier := { s.dossier with path := rest } }
      step?.elim (.responds .notFound, s) fun step ↦ Meaning.ofProgram t step.program s := by
  induction h generalizing s with
  | step step path =>
    subst hpath
    rfl
  | miss skips =>
    subst hpath
    rw [toStep_router, Meaning.ofProgram, Meaning.ofOperation, firstMatch_of_skips skips]
    rfl
  | @take _ _ _ _ _ middle _ _ _ skips hit _ ih =>
    subst hpath
    rw [toStep_router, Meaning.ofProgram, Meaning.ofOperation, firstMatch_of_hit skips hit]
    exact ih (s := { s with dossier := { s.dossier with path := middle } }) rfl

end Nest

end Router

/-! ## Turns -/

namespace Request

open Router (Nest Skips strip?)

variable {σ : Type} [Exchange σ] {k : Kind} {r : Request σ} {p : Program} {next : Value → Program}
  {routes before after : List (String × Nest k)} {front rest : String} {nest : Nest k}

theorem turn_of_hit (hp : r.program = some p)
    (hrun : p.run =
      (Routine.flatMap (Nest.router (before ++ (front, nest) :: after)).toStep.program next).run)
    (skips : Skips r.dossier.path before) (hit : strip? r.dossier.path front = some rest) :
    r.turn =
      ({ r with
        program := some (.flatMap nest.toStep.program next), stage := .running
        dossier := { r.dossier with path := rest } }, []) := by
  rw [turn, hp]
  dsimp only
  rw [hrun, Nest.toStep_router, Routine.run_of_reduce_inl rfl, proceed, Dossier.answer,
    Nest.firstMatch_of_hit skips hit]
  simp only [react, takeOver, Journal.since_self, List.map_nil, keep]

theorem turn_of_miss (hp : r.program = some p)
    (hrun : p.run = (Routine.flatMap (Nest.router routes).toStep.program next).run)
    (skips : Skips r.dossier.path routes) :
    r.turn = ({ r with program := none, stage := .leaving (.respond .notFound) }, []) := by
  rw [turn, hp]
  dsimp only
  rw [hrun, Nest.toStep_router, Routine.run_of_reduce_inl rfl, proceed, Dossier.answer,
    Nest.firstMatch_of_skips skips, react]

end Request

end Turnstile
