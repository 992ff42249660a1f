import Turnstile.Proofs.Request.Account
import Turnstile.Proofs.Scheduler.Decision

/-!
# Nobody is counted twice or not at all

The counters of the pool add up. Every request that has arrived is on its way in, or outstanding, or
has left, and whoever left was counted as completed or as refused unless its exchange broke off when
it was declared over. This is read off the stages: the outstanding are those at a place inside, and
with each move one request leaves and is counted once, or nobody does (`Scheduler.Leaving`).

A submission that fails is a request that leaves without having been let in. What the pool counts
as submitted is all the others.
-/

namespace Turnstile

theorem Stage.place_inside_add (stage : Stage) :
    stage.place.inside.toNat + stage.isEntering.toNat + stage.isGone.toNat = 1 := by
  cases stage with
  | refusing reason admitted => cases admitted <;> rfl
  | _ => rfl

theorem Stage.ending?_eq_none_iff {stage : Stage} :
    stage.ending? = none ↔ stage.isGone = false := by
  cases stage <;> simp [ending?, isGone]

/-- The request was refused. -/
def Ending.isRefused : Ending → Bool
  | .refused _ => true
  | _ => false

/-- The exchange broke off when it was declared over. -/
def Call.breaksOff : Call → Bool
  | .complete (some _) => true
  | _ => false

theorem Call.breaksOff_eq (c : Call) : c.breaksOff = c.ending?.any (· = .broken) := by
  cases c with
  | complete fault? => cases fault? <;> rfl
  | _ => rfl

namespace Scheduler

open Request (endingsOf failures callsOf)

variable {σ : Type} {s s' : Scheduler σ} {m : Move σ} {n : Nat} {r : Request σ}

/-! ## Counting by ordinals -/

theorem tally_eq_countP {question : Nat → Bool} {size : Nat} (hle : s.requests.size ≤ size)
    (h : ∀ n, s.requests.size ≤ n → question n = false) :
    s.tally question = (List.range size).countP question := by
  induction size, hle using Nat.le_induction with
  | base => rfl
  | succ size hle ih =>
    rw [List.range_succ, List.countP_append, ← ih, List.countP_singleton, h size hle]
    rfl

theorem tally_eq_zero {question : Nat → Bool} (h : ∀ n, question n = false) :
    s.tally question = 0 := by
  rw [tally, List.countP_eq_zero]
  intro n _
  rw [h]
  exact Bool.false_ne_true

theorem countP_range_update (question question' : Nat → Bool) {size : Nat} (hn : n < size)
    (others : ∀ k, k ≠ n → question' k = question k) :
    (List.range size).countP question' + (question n).toNat =
      (List.range size).countP question + (question' n).toNat := by
  induction size with
  | zero => cases hn
  | succ size ih =>
    rw [List.range_succ, List.countP_append, List.countP_append, List.countP_singleton,
      List.countP_singleton, ← toNat_eq_ite, ← toNat_eq_ite]
    by_cases hlast : n = size
    · have hrest : (List.range size).countP question' = (List.range size).countP question :=
        List.countP_congr fun k hk ↦ by
          rw [others k (Nat.ne_of_lt (hlast ▸ List.mem_range.mp hk))]
      rw [hrest, hlast]
      omega
    · have hrest := ih (by omega)
      rw [others size (Ne.symm hlast)]
      omega

/-- How the request with an ordinal has left, if it has. -/
def ending? (s : Scheduler σ) (n : Nat) : Option Ending := s.requests[n]?.bind (·.stage.ending?)

/-- How many have left in a way of some kind. -/
def left (s : Scheduler σ) (kind : Ending → Bool) : Nat :=
  s.tally fun n ↦ (s.ending? n).any kind

theorem ending?_of_size_le (h : s.requests.size ≤ n) : s.ending? n = none := by
  rw [ending?, Array.getElem?_eq_none h]
  rfl

theorem ending?_eq (hr : s.requests[n]? = some r) : s.ending? n = r.stage.ending? := by
  rw [ending?, hr, Option.bind_some]

/-- The request with an ordinal has arrived and has been neither let in nor refused yet. -/
def isEntering (s : Scheduler σ) (n : Nat) : Bool := s.requests[n]?.any (·.stage.isEntering)

variable [Exchange σ]

/-- Who leaves with a move without having been let in. -/
def leftAtEntryBy (s : Scheduler σ) (m : Move σ) : List Nat :=
  (List.range s.requests.size).filter fun n ↦ s.isEntering n && ((s.perform m).ending? n).isSome

/-- Who left in a run without having been let in: the submissions that failed. -/
def leftAtEntry : Scheduler σ → List (Move σ) → List Nat
  | _, [] => []
  | s, m :: moves => s.leftAtEntryBy m ++ leftAtEntry (s.perform m) moves

theorem length_leftAtEntryBy (s : Scheduler σ) (m : Move σ) :
    (s.leftAtEntryBy m).length = (List.range s.requests.size).countP fun n ↦
      s.isEntering n && ((s.perform m).ending? n).isSome :=
  List.countP_eq_length_filter.symm

/-! ## Who leaves with a move -/

omit [Exchange σ] in
theorem Leaving.one_left {r' : Request σ} {ending : Ending} (hr : s.requests[n]? = some r)
    (here : r.stage.isGone = false) (hr' : s'.requests[n]? = some r')
    (gone : r'.stage = .gone ending) (others : ∀ k, k ≠ n → s'.requests[k]? = s.requests[k]?) :
    s'.requests.size = s.requests.size ∧
      ∀ kind, s'.left kind = s.left kind + (kind ending).toNat := by
  have hsize : s'.requests.size = s.requests.size := by
    rcases Nat.lt_trichotomy s'.requests.size s.requests.size with hlt | heq | hlt
    · have hlast := others _ (Nat.ne_of_gt (lt_size hr'))
      rw [Array.getElem?_eq_none (Nat.le_refl _), Array.getElem?_eq_getElem hlt] at hlast
      cases hlast
    · exact heq
    · have hlast := others _ (Nat.ne_of_gt (lt_size hr))
      rw [Array.getElem?_eq_none (Nat.le_refl _), Array.getElem?_eq_getElem hlt] at hlast
      cases hlast
  refine ⟨hsize, ?_⟩
  intro kind
  have hbefore : s.ending? n = none := (ending?_eq hr).trans (Stage.ending?_eq_none_iff.mpr here)
  have hafter : s'.ending? n = some ending := by
    rw [ending?_eq hr', gone]
    rfl
  have hupdate := countP_range_update (fun k ↦ (s.ending? k).any kind)
    (fun k ↦ (s'.ending? k).any kind) (lt_size hr) fun k hk ↦ by simp only [ending?, others k hk]
  simp only [hbefore, hafter, Option.any_none, Option.any_some, Bool.toNat_false] at hupdate
  rw [left, tally, hsize]
  exact hupdate

theorem Reachable.ending?_perform (h : s.Reachable) (stages : ∀ {n : Nat} {r : Request σ},
      s.requests[n]? = some r →
        ∃ r', (s.perform m).requests[n]? = some r' ∧ r'.stage.isGone = r.stage.isGone) (n : Nat) :
    (s.perform m).ending? n = s.ending? n := by
  have hchange := h.change m
  by_cases hn : n < s.requests.size
  · have hr := Array.getElem?_eq_getElem hn
    obtain ⟨r', hr', hgone⟩ := stages hr
    rw [ending?_eq hr, ending?_eq hr']
    cases hending : s.requests[n].stage.ending? with
    | none =>
      rw [Stage.ending?_eq_none_iff] at hending ⊢
      exact hgone.trans hending
    | some ending =>
      -- whoever has left stays as it left
      obtain ⟨r'', told, hr'', -, hstep⟩ := hchange.step h.sound hr
      cases hr'.symm.trans hr''
      obtain ⟨-, hsame, -⟩ := hstep.of_gone (Stage.ending?_eq_some_iff.mp hending)
      rw [hsame, hending]
  · have hle := Nat.le_of_not_lt hn
    rw [ending?_of_size_le hle]
    by_cases hn' : n < (s.perform m).requests.size
    · have hr' := Array.getElem?_eq_getElem hn'
      obtain ⟨rfl, exchange, program, harrive⟩ := hchange.arrived h.sound hle hr'
      rw [harrive, ending?_eq (h.arrival exchange program).1]
      rfl
    · exact ending?_of_size_le (Nat.le_of_not_lt hn')

theorem Reachable.size_le_perform (h : s.Reachable) (m : Move σ) :
    s.requests.size ≤ (s.perform m).requests.size := by
  by_contra hlt
  have hr := Array.getElem?_eq_getElem (Nat.lt_of_not_le hlt)
  obtain ⟨r', told, hr', -⟩ := (h.change m).step h.sound hr
  exact absurd (lt_size hr') (Nat.lt_irrefl _)

omit [Exchange σ] in
theorem ending?_of_isEntering (h : s.isEntering n = true) : s.ending? n = none := by
  obtain ⟨r, hr, hentering⟩ := (Option.any_eq_true _ _).mp h
  rw [ending?_eq hr]
  rcases Stage.isEntering_iff.mp hentering with hstage | ⟨reason, hstage⟩ <;> rw [hstage] <;> rfl

/-- With a move one request leaves and is counted once, and it is turned away if it had not been let
in; or nobody leaves. -/
theorem Reachable.left_perform (h : s.Reachable) (m : Move σ) :
    (∃ (r : Request σ) (ending : Ending), r.stage.isGone = false ∧
        (r.stage.place.inside = true → 0 < s.pool.outstanding) ∧
        (r.stage.isEntering = true → ∃ reason, ending = .refused reason) ∧
        (s.perform m).pool = s.pool.discharge r.stage.place.inside ending ∧
        (∀ kind, (s.perform m).left kind = s.left kind + (kind ending).toNat) ∧
        (s.leftAtEntryBy m).length = r.stage.isEntering.toNat) ∨
      s.pool.KeepsAll (s.perform m).pool ∧ (∀ kind, (s.perform m).left kind = s.left kind) ∧
        (s.leftAtEntryBy m).length = 0 := by
  rcases h.leaving m with
    @⟨n, r, r', ending, hr, here, hr', gone, counted, pool, others⟩ | ⟨pool, stages⟩
  · left
    obtain ⟨-, hleft⟩ := Leaving.one_left hr here hr' gone others
    obtain ⟨q, told, hq, -, hstep⟩ := (h.change m).step h.sound hr
    cases hr'.symm.trans hq
    have hrefused (hentering : r.stage.isEntering = true) : ∃ reason, ending = .refused reason :=
      hstep.gone_of_entering (h.sound.wellFormed hr) hentering gone
    refine ⟨r, ending, here, counted, hrefused, pool, hleft, ?_⟩
    -- nobody else leaves, so nobody else is turned away
    have hupdate := countP_range_update (fun _ ↦ false)
      (fun k ↦ s.isEntering k && ((s.perform m).ending? k).isSome) (lt_size hr)
      fun k hk ↦ by
        cases hentering : s.isEntering k with
        | false => rfl
        | true =>
          have hsame : (s.perform m).ending? k = s.ending? k := by simp only [ending?, others k hk]
          rw [hsame, ending?_of_isEntering hentering]
          rfl
    have hentering : s.isEntering n = r.stage.isEntering := by
      rw [isEntering, hr, Option.any_some]
    rw [ending?_eq hr', gone, hentering] at hupdate
    rw [length_leftAtEntryBy]
    simpa [Stage.ending?] using hupdate
  · right
    have hending := h.ending?_perform stages
    refine ⟨pool, ?_, ?_⟩
    · intro kind
      have hleft : s.left kind = _ := tally_eq_countP (h.size_le_perform m) fun n hn ↦ by
        rw [ending?_of_size_le hn, Option.any_none]
      rw [hleft, left, tally]
      simp only [hending]
    · rw [length_leftAtEntryBy, List.countP_eq_zero]
      intro n _ hboth
      obtain ⟨hentering, hleaves⟩ := Bool.and_eq_true_iff.mp hboth
      rw [hending, ending?_of_isEntering hentering] at hleaves
      cases hleaves

/-! ## The counters -/

/-- The counters of those who left, and those submitted or turned away. -/
structure Counted (s : Scheduler σ) (away : Nat) : Prop where
  /-- Those completed are counted. -/
  completed : s.pool.completed = s.left (· = .completed)
  /-- Those refused are counted. -/
  rejected : s.pool.rejected = s.left Ending.isRefused
  /-- Those submitted are outstanding or have left, as those turned away. -/
  submitted : s.pool.submitted + away = s.pool.outstanding + s.left fun _ ↦ true

omit [Exchange σ] in
theorem Counted.discharge {away : Nat} {ending : Ending} {stage : Stage} (hc : s.Counted away)
    (here : stage.isGone = false) (counted : stage.place.inside = true → 0 < s.pool.outstanding)
    (refused : stage.isEntering = true → ∃ reason, ending = .refused reason)
    (hpool : s'.pool = s.pool.discharge stage.place.inside ending)
    (hleft : ∀ kind, s'.left kind = s.left kind + (kind ending).toNat) :
    s'.Counted (away + stage.isEntering.toNat) := by
  have hsum := stage.place_inside_add
  have hsubmitted := hc.submitted
  rw [here, Bool.toNat_false] at hsum
  have hout : s'.pool.submitted = s.pool.submitted ∧
      s'.pool.outstanding + stage.place.inside.toNat = s.pool.outstanding := by
    rw [hpool]
    cases hinside : stage.place.inside with
    | true =>
      have hpos := counted hinside
      cases ending <;> exact ⟨rfl, Nat.sub_add_cancel hpos⟩
    | false =>
      -- whoever is neither inside nor gone is on its way in, and can only be refused
      have hentering : stage.isEntering = true := by
        rw [hinside, Bool.toNat_false, Nat.zero_add, Nat.add_zero] at hsum
        exact Bool.toNat_eq_one.mp hsum
      obtain ⟨reason, rfl⟩ := refused hentering
      exact ⟨rfl, rfl⟩
  refine { completed := ?_, rejected := ?_, submitted := ?_ }
  · rw [hpool, hleft, ← hc.completed]
    cases ending <;> rfl
  · rw [hpool, hleft, ← hc.rejected]
    cases ending <;> rfl
  · rw [hleft, hout.1, Bool.toNat_true]
    omega

theorem Reachable.counted_perform {away : Nat} (h : s.Reachable) (hc : s.Counted away)
    (m : Move σ) : (s.perform m).Counted (away + (s.leftAtEntryBy m).length) := by
  rcases h.left_perform m with
    ⟨r, ending, here, counted, refused, hpool, hleft, haway⟩ | ⟨hkeeps, hleft, haway⟩
  · rw [haway]
    exact hc.discharge here counted refused hpool hleft
  · have hsubmitted := hc.submitted
    have hout := hkeeps.outstanding
    refine { completed := ?_, rejected := ?_, submitted := ?_ }
    · rw [hleft, hkeeps.completed, hc.completed]
    · rw [hleft, hkeeps.rejected, hc.rejected]
    · rw [hleft, haway]
      omega

theorem Reachable.counted_performAll {away : Nat} (h : s.Reachable) (hc : s.Counted away)
    (moves : List (Move σ)) :
    (s.performAll moves).Counted (away + (s.leftAtEntry moves).length) := by
  induction moves generalizing s away with
  | nil => exact hc
  | cons m moves ih =>
    have hrest := ih (h.move m) (h.counted_perform hc m)
    rw [leftAtEntry, List.length_append, ← Nat.add_assoc]
    exact hrest

omit [Exchange σ] in
theorem counted_new (config : Config) (hooks : Hooks) :
    (new config hooks : Scheduler σ).Counted 0 := ⟨rfl, rfl, rfl⟩

/-! ## Everybody is somewhere -/

omit [Exchange σ] in
theorem left_all (s : Scheduler σ) : s.left (fun _ ↦ true) = s.count Stage.isGone := by
  refine (count_eq_tally fun n ↦ ?_).symm
  rw [Option.any_eq_true, ending?]
  constructor
  · rintro ⟨ending, hending, -⟩
    obtain ⟨r, hr, hending⟩ := Option.bind_eq_some_iff.mp hending
    exact ⟨r, hr, by rw [Stage.ending?_eq_some_iff.mp hending]; rfl⟩
  · rintro ⟨r, hr, hgone⟩
    obtain ⟨ending, hending⟩ := Option.ne_none_iff_exists'.mp fun hnone ↦ by
      rw [Stage.ending?_eq_none_iff.mp hnone] at hgone
      cases hgone
    exact ⟨ending, Option.bind_eq_some_iff.mpr ⟨r, hr, hending⟩, rfl⟩

omit [Exchange σ] in
/-- Everybody who has arrived is inside, on its way in, or gone. -/
theorem size_eq (s : Scheduler σ) :
    s.requests.size =
      s.population Place.inside + s.count Stage.isEntering + s.left fun _ ↦ true := by
  rw [left_all, population, count, count, count, ← Array.countP_toList, ← Array.countP_toList,
    ← Array.countP_toList, ← Array.length_toList]
  induction s.requests.toList with
  | nil => rfl
  | cons r rs ih =>
    have hone := r.stage.place_inside_add
    simp only [List.length_cons, List.countP_cons, ← toNat_eq_ite]
    omega

omit [Exchange σ] in
theorem left_split (s : Scheduler σ) :
    s.left (fun _ ↦ true) =
      s.left (· = .completed) + s.left Ending.isRefused + s.left (· = .broken) := by
  unfold left tally
  induction List.range s.requests.size with
  | nil => rfl
  | cons n ns ih =>
    simp only [List.countP_cons, ih]
    rcases s.ending? n with _ | (_ | _ | reason) <;>
      simp [Ending.isRefused] <;> omega

/-! ## What the journal says -/

/-- The exchange of the request with an ordinal broke off when it was declared over. -/
def brokeAtEnd (s : Scheduler σ) (n : Nat) : Bool := (callsOf (s.history n)).any Call.breaksOff

/-- The failure of the request with an ordinal was reported. -/
def reportedFailure (s : Scheduler σ) (n : Nat) : Bool := 0 < failures (s.history n)

theorem Reachable.endingsOf_history (h : s.Reachable) (hr : s.requests[n]? = some r) :
    endingsOf (s.history n) = r.stage.ending?.toList := by
  obtain ⟨qos, exchange, program, inputs, hrun⟩ := h.run hr
  exact (hrun.endings (Request.wellFormed_new _ _ _ _) rfl).2

/-- Those who are lost to the counters are those whose exchange broke off at the end. -/
theorem Reachable.left_broken (h : s.Reachable) :
    s.left (· = .broken) = s.tally s.brokeAtEnd := by
  refine List.countP_congr fun n hn ↦ ?_
  obtain ⟨r, hr⟩ : ∃ r, s.requests[n]? = some r :=
    ⟨_, Array.getElem?_eq_getElem (List.mem_range.mp hn)⟩
  have hbroke : s.brokeAtEnd n = (endingsOf (s.history n)).any (· = .broken) := by
    rw [brokeAtEnd, endingsOf, List.any_filterMap]
    congr 1
    funext c
    rw [Call.breaksOff_eq]
    cases c.ending? <;> rfl
  rw [hbroke, h.endingsOf_history hr, ending?_eq hr]
  cases r.stage.ending? <;> simp

theorem Reachable.failures_le_one (h : s.Reachable) (n : Nat) : failures (s.history n) ≤ 1 := by
  by_cases hn : n < s.requests.size
  · obtain ⟨qos, exchange, program, inputs, hrun⟩ := h.run (Array.getElem?_eq_getElem hn)
    rcases hrun.failures with hnone | ⟨hone, -⟩ <;> omega
  · rw [h.sound.numbered.history_eq_nil (Nat.le_of_not_lt hn)]
    exact Nat.zero_le 1

/-! ## Failures -/

theorem Shift.failed {r' : Request σ} {input : Request.Input} {told : List Happening} {p : Pool}
    {jobs draining : List Nat} (h : Shift s r input r' told p jobs draining) :
    p.failed = s.pool.failed + failures told := by
  cases h with
  | own h => rw [h.failures.1, Nat.add_zero]
  | passGate h => rfl
  | fail h =>
    rw [failures, Request.answersOf_fail]
    rfl
  | place h hp | queue h hp =>
    rw [Pool.enroll_frame hp]
    rfl
  | decline h hp => rfl
  | pickUp h hj => rfl
  | finish h =>
    rw [Request.failures_of_nil (Request.answersOf_finish r)]
    cases (Request.finish s.hooks r).1 <;> rfl
  | refuse h =>
    rw [Request.failures_of_nil (Request.answersOf_refuse r _)]
    rfl
  | drain h hd =>
    rw [Request.failures_of_nil (Request.answersOf_refuse r _)]
    rfl
  | rank h hp =>
    obtain ⟨found, -, rfl⟩ := Option.map_eq_some_iff.mp hp
    rfl

/-- A report more counts one request more, if no request has two. -/
theorem toNat_decide_pos_add {a b : Nat} (h : a + b ≤ 1) :
    (decide (0 < a + b)).toNat = (decide (0 < a)).toNat + b := by
  have hcases : a = 0 ∧ b = 0 ∨ a = 0 ∧ b = 1 ∨ a = 1 ∧ b = 0 := by omega
  rcases hcases with ⟨rfl, rfl⟩ | ⟨rfl, rfl⟩ | ⟨rfl, rfl⟩ <;> rfl

omit [Exchange σ] in
theorem failed_congr (ih : s.pool.failed = s.tally s.reportedFailure)
    (hpool : s'.pool.failed = s.pool.failed) (hsize : s'.requests.size = s.requests.size)
    (hjournal : s'.journal = s.journal) : s'.pool.failed = s'.tally s'.reportedFailure := by
  rw [hpool, ih, tally, tally, hsize]
  refine List.countP_congr fun n _ ↦ ?_
  rw [reportedFailure, reportedFailure, history_congr hjournal]

theorem Change.failed (hs : s.Reachable) (hs' : s'.Reachable) (h : Change s m s')
    (ih : s.pool.failed = s.tally s.reportedFailure) :
    s'.pool.failed = s'.tally s'.reportedFailure := by
  have hnumbered := hs.sound.numbered
  cases h with
  | stay permits quiet => exact failed_congr ih rfl rfl rfl
  | @arrive exchange program hm =>
    have hnew (n : Nat) (hn : s.requests.size ≤ n) : s.reportedFailure n = false := by
      rw [reportedFailure, hnumbered.history_eq_nil hn]
      rfl
    have hsize : (s.arrive exchange program).requests.size = s.requests.size + 1 :=
      Array.size_push _
    refine ih.trans ?_
    rw [tally_eq_countP (Nat.le_succ _) hnew, tally, hsize]
    rfl
  | @shift k r r' told p jobs draining permits hr others h =>
    have hordinal : r'.ordinal = k :=
      (h.step.kept (hs.sound.wellFormed hr)).1.trans (hnumbered.ordinal hr)
    have hhistory (n : Nat) :
        ({ s with pool := p, jobs, draining, permits }.absorb (r', told)).history n =
          s.history n ++ if k = n then told else [] := by
      rw [history_absorb, hordinal]
      rfl
    have hone := hs'.failures_le_one k
    rw [hhistory, if_pos rfl, Request.failures_append] at hone
    have hupdate := countP_range_update s.reportedFailure
      ({ s with pool := p, jobs, draining, permits }.absorb (r', told)).reportedFailure
      (lt_size hr) fun n hn ↦ by
        rw [reportedFailure, reportedFailure, hhistory, if_neg (Ne.symm hn), List.append_nil]
    rw [reportedFailure, reportedFailure, hhistory, if_pos rfl, Request.failures_append,
      toNat_decide_pos_add hone] at hupdate
    have hsize : ({ s with pool := p, jobs, draining, permits }.absorb (r', told)).requests.size =
      s.requests.size := size_put
    rw [tally, hsize]
    have hfailed := h.failed
    rw [ih, tally] at hfailed
    exact hfailed.trans (by omega)
  | @release k r exit hm hr h =>
    rw [release_eq hs.sound.balanced]
    refine failed_congr ih ?_ ?_ restageAll_journal
    · rw [restageAll_pool, hs.sound.balanced.promoted_release.frame]
    · rw [size_restageAll]
      exact size_put
  | stop hm =>
    rw [stop_eq]
    refine failed_congr ih ?_ size_restageAll restageAll_journal
    rw [restageAll_pool, Pool.stop]
    split <;> rfl

theorem Reachable.failed (h : s.Reachable) : s.pool.failed = s.tally s.reportedFailure := by
  induction h with
  | start valid hooks => rfl
  | move h m ih => exact (h.change m).failed h (h.move m) ih

theorem Failed.of_append {failure : Failure} {data : Metadata} {moves : List (Move σ)}
    (h : s.Failed n failure (moves ++ [m]) data)
    (hr : (s.performAll (moves ++ [m])).requests[n]? = some r) :
    s.Failed n failure moves data ∨ r.stage.isFailing = true := by
  obtain ⟨earlier, r₀, hprefix, hr₀, hstage, hdata⟩ := h
  rcases List.prefix_concat_iff.mp hprefix with rfl | hprefix
  · cases hr.symm.trans hr₀
    exact .inr (by rw [hstage]; rfl)
  · exact .inl ⟨earlier, r₀, hprefix, hr₀, hstage, hdata⟩

theorem Reachable.lt_size_of_failed (h : s.Reachable) {failure : Failure} {data : Metadata}
    {moves : List (Move σ)} (hfailed : s.Failed n failure moves data) :
    n < (s.performAll moves).requests.size := by
  obtain ⟨earlier, r, ⟨rest, rfl⟩, hr, -⟩ := hfailed
  obtain ⟨r', told, hr', -⟩ := (h.performAll earlier).run_performAll rest hr
  rw [performAll_append]
  exact lt_size hr'

/-- A request's failure is reported once it has been answered for it, and stays reported. -/
theorem Reachable.reported (h : s.Reachable) (hempty : s.requests.size = 0) (moves : List (Move σ))
    (hr : (s.performAll moves).requests[n]? = some r) :
    failures ((s.performAll moves).history n) = 0 ∧
        (∀ failure m, s.Failed n failure moves m → r.stage.isFailing = true) ∨
      failures ((s.performAll moves).history n) = 1 ∧ r.stage.isConcluding = true ∧
        ∃ failure m, s.Failed n failure moves m := by
  induction moves using List.reverseRecOn generalizing r with
  | nil =>
    have hlt := lt_size hr
    rw [show s.performAll [] = s from rfl, hempty] at hlt
    cases hlt
  | append_singleton moves m ih =>
    have hreachable := h.performAll moves
    have hchange := hreachable.change m
    have hlast : s.performAll (moves ++ [m]) = (s.performAll moves).perform m :=
      performAll_append s moves [m]
    have hnow := hr
    rw [hlast] at hr ⊢
    by_cases hn : n < (s.performAll moves).requests.size
    · have hr₁ := Array.getElem?_eq_getElem hn
      obtain ⟨r₂, told, hr₂, hhistory, hstep⟩ := hchange.step hreachable.sound hr₁
      cases hr.symm.trans hr₂
      rw [hhistory, Request.failures_append]
      rcases hstep.failures with ⟨hone, hfailing, hstage⟩ | ⟨hnone, hfailing, hconcluding⟩
      · rcases ih hr₁ with ⟨hzero, -⟩ | ⟨-, hconcluding, -⟩
        · obtain ⟨failure, hfailing⟩ := Stage.isFailing_iff.mp hfailing
          refine .inr ⟨by omega, by rw [hstage]; rfl, failure, _, moves, _, ?_, hr₁, hfailing, rfl⟩
          exact List.prefix_append _ _
        · obtain ⟨failure, hfailing⟩ := Stage.isFailing_iff.mp hfailing
          rw [hfailing] at hconcluding
          cases hconcluding
      · rcases ih hr₁ with ⟨hzero, hbefore⟩ | ⟨hone, hbefore, failure, data, hfailed⟩
        · refine .inl ⟨by omega, ?_⟩
          intro failure data hfailed
          rcases hfailed.of_append hnow with hfailed | hfails
          · exact hfailing (hbefore failure data hfailed)
          · exact hfails
        · exact .inr ⟨by omega, hconcluding hbefore, failure, data, hfailed.append [m]⟩
    · obtain ⟨rfl, exchange, program, harrive⟩ :=
        hchange.arrived hreachable.sound (Nat.le_of_not_lt hn) hr
      obtain ⟨-, hhistory⟩ := hreachable.arrival exchange program
      rw [harrive, hhistory]
      refine .inl ⟨rfl, ?_⟩
      intro failure data hfailed
      rcases hfailed.of_append hnow with hfailed | hfails
      · -- nobody is there before the arrival
        exact absurd (h.lt_size_of_failed hfailed) (Nat.lt_irrefl _)
      · exact hfails

/-- A request's failure is reported exactly if it failed at some moment and is past it. -/
theorem Reachable.reportedFailure_iff (h : s.Reachable) (hempty : s.requests.size = 0)
    (moves : List (Move σ)) (hr : (s.performAll moves).requests[n]? = some r) :
    (s.performAll moves).reportedFailure n = true ↔
      r.stage.isFailing = false ∧ ∃ failure m, s.Failed n failure moves m := by
  rw [reportedFailure, decide_eq_true_eq]
  rcases h.reported hempty moves hr with ⟨hnone, hfailing⟩ | ⟨hone, hconcluding, hfailed⟩
  · refine iff_of_false (by omega) ?_
    rintro ⟨hstage, failure, data, hfailed⟩
    rw [hfailing failure data hfailed] at hstage
    cases hstage
  · refine iff_of_true (by omega) ⟨?_, hfailed⟩
    refine Bool.eq_false_iff.mpr fun hfailing ↦ ?_
    obtain ⟨failure, hstage⟩ := Stage.isFailing_iff.mp hfailing
    rw [hstage] at hconcluding
    cases hconcluding

/-! ## Submissions -/

/-- The move is an arrival. -/
def Move.isArrival : Move σ → Bool
  | .arrive _ _ => true
  | _ => false

theorem Reachable.size_perform (h : s.Reachable) (m : Move σ) :
    (s.perform m).requests.size = s.requests.size + m.isArrival.toNat := by
  by_cases harrival : m.isArrival = true
  · rw [harrival]
    cases m with
    | arrive exchange program => exact Array.size_push _
    | _ => cases harrival
  rw [Bool.eq_false_iff.mpr harrival]
  have hchange := h.change m
  generalize s.perform m = s' at hchange
  cases hchange with
  | stay permits quiet => rfl
  | arrive hm =>
    rw [hm] at harrival
    exact absurd rfl harrival
  | shift permits hr others h => exact size_put
  | release hm hr hstage =>
    rw [release_eq h.sound.balanced, size_restageAll]
    exact size_put
  | stop hm =>
    rw [stop_eq]
    exact size_restageAll

theorem Reachable.missing_perform (h : s.Reachable) (hr : s.requests[n]? = none)
    (hm : m.isArrival = true → s.requests.size ≠ n) :
    (s.perform m).requests[n]? = none ∧ (s.perform m).history n = s.history n := by
  have hle := Array.getElem?_eq_none_iff.mp hr
  have hsize : (s.perform m).requests.size ≤ n := by
    rw [h.size_perform]
    cases harrival : m.isArrival with
    | false => exact hle
    | true => exact Nat.lt_of_le_of_ne hle (hm harrival)
  refine ⟨Array.getElem?_eq_none hsize, ?_⟩
  rw [h.sound.numbered.history_eq_nil hle, (h.move m).sound.numbered.history_eq_nil hsize]

theorem Reachable.size_performAll (h : s.Reachable) (moves : List (Move σ)) :
    (s.performAll moves).requests.size = s.requests.size + moves.countP Move.isArrival := by
  induction moves generalizing s with
  | nil => rfl
  | cons m moves ih =>
    have hrest := ih (h.move m)
    rw [h.size_perform] at hrest
    rw [List.countP_cons]
    refine hrest.trans ?_
    cases m.isArrival
    · rfl
    · exact Nat.add_right_comm _ _ _

theorem Reachable.submitted_submit (h : s.Reachable) (exchange : σ) (program : Program) :
    (s.submit exchange program).2.requests.size = s.requests.size + 1 ∧
      (s.submit exchange program).2.pool.submitted =
        s.pool.submitted + (s.submit exchange program).1.isOk.toNat := by
  cases hobjection : s.pool.objection? with
  | none =>
    obtain ⟨hnew, -⟩ := h.arrival exchange program
    have harrived : (s.arrive exchange program).Reachable := h.move (.arrive exchange program)
    rw [h.submit_of_none exchange program hobjection]
    constructor
    · rw [harrived.size_perform]
      exact Array.size_push _
    · obtain ⟨placement, pool, hpool⟩ := (harrived.sound.balanced.exists_enroll_iff .fresh
        (harrived.index_asking .fresh hnew rfl)).mpr hobjection
      obtain ⟨placed, hplaced, rfl⟩ := Pool.enroll_eq_ok hpool
      have hsubmitted : (placed.accept .fresh).submitted = s.pool.submitted + 1 := by
        rw [Pool.place_frame hplaced]
        rfl
      rw [advance_asking .fresh hnew rfl, enroll, hpool]
      cases placement <;> exact hsubmitted
  | some reason =>
    obtain ⟨r', hsubmit, -⟩ := h.submit_of_objection exchange program hobjection
    rw [hsubmit]
    exact ⟨Array.size_push _, rfl⟩

/-! ## The counters add up -/

/-- The counters add up after a run from `start`. Somebody is on its way in while a submission is
under way, so between operations nobody is. -/
structure Conserved (start : Scheduler σ) (moves : List (Move σ)) (s : Scheduler σ) : Prop where
  /-- Each submission takes an ordinal. -/
  issued : s.requests.size = moves.countP Move.isArrival
  /-- Everybody who has taken one is outstanding, completed, refused, lost because its exchange
  broke off when it was declared over, or on its way in. -/
  total : s.requests.size =
    s.pool.outstanding + s.pool.completed + s.pool.rejected + s.tally s.brokeAtEnd +
      s.count Stage.isEntering
  /-- Those submitted are all but the submissions that failed and those on their way in. -/
  submitted : s.requests.size =
    s.pool.submitted + (start.leftAtEntry moves).length + s.count Stage.isEntering
  /-- A submission is counted as submitted exactly if it does not fail. -/
  submits : ∀ (exchange : σ) (program : Program),
    (s.submit exchange program).2.requests.size = s.requests.size + 1 ∧
      (s.submit exchange program).2.pool.submitted =
        s.pool.submitted + (s.submit exchange program).1.isOk.toNat
  /-- The failures counted are the requests whose failure was reported. -/
  failed : s.pool.failed = s.tally s.reportedFailure
  /-- The failure of a request is reported once at most. -/
  once : ∀ n, failures (s.history n) ≤ 1
  /-- A failure was reported of those who failed at some moment of the run and are past it. -/
  reported : ∀ {n : Nat} {r : Request σ}, s.requests[n]? = some r →
    (s.reportedFailure n = true ↔
      r.stage.isFailing = false ∧ ∃ failure m, start.Failed n failure moves m)
  /-- The active are those on a slot and those in the queue. -/
  active : s.stats.active = s.stats.live + s.stats.queued ∧
    s.stats.live = s.tally s.onSlot ∧ s.stats.queued = s.tally s.inQueue
  /-- When nobody is anywhere, everybody was completed or refused, if no exchange broke off. -/
  idle : s.isIdle = true → s.count Stage.isEntering = 0 → (∀ n, s.brokeAtEnd n = false) →
    s.requests.size = s.stats.completed + s.stats.rejected

theorem Reachable.total (h : s.Reachable) {away : Nat} (hc : s.Counted away) :
    s.requests.size =
      s.pool.outstanding + s.pool.completed + s.pool.rejected + s.tally s.brokeAtEnd +
        s.count Stage.isEntering := by
  have hsize := s.size_eq
  rw [s.left_split, h.left_broken, ← hc.completed, ← hc.rejected, ← h.placed.outstanding] at hsize
  omega

/-- After every run the counters add up. -/
theorem performAll_conserved {config : Config} {hooks : Hooks} (h : start? config hooks = .ok s)
    (moves : List (Move σ)) : Conserved s moves (s.performAll moves) := by
  have hstart := reachable_of_start? h
  obtain ⟨-, rfl⟩ := start?_eq_ok h
  have hreachable := hstart.performAll moves
  have hcounted := hstart.counted_performAll (counted_new config hooks) moves
  have htotal := hreachable.total hcounted
  have haccounted := hreachable.accounted
  refine {
    issued := (hstart.size_performAll moves).trans (Nat.zero_add _)
    total := htotal
    submitted := ?submitted
    submits := hreachable.submitted_submit
    failed := hreachable.failed
    once := hreachable.failures_le_one
    reported := hstart.reportedFailure_iff rfl moves
    active := ⟨rfl, haccounted.live, haccounted.queue⟩
    idle := ?idle }
  case submitted =>
    have hsize := (new config hooks |>.performAll moves).size_eq
    have hsubmitted := hcounted.submitted
    rw [← hreachable.placed.outstanding] at hsize
    omega
  case idle =>
    intro hidle hentering hbroke
    rw [haccounted.idle.mp hidle, tally_eq_zero hbroke, hentering] at htotal
    exact htotal.trans (by simp [stats])

/-- A request takes the only slot, and a second one comes, may not wait and is turned away. -/
def turnedDown : List (Move Scripted) :=
  [.arrive (.new default) (.pure .unit), .advance 0, .arrive (.new default) (.pure .unit),
    .advance 1, .advance 1]

/-- Of these two the first is outstanding and counted as submitted, and the second is refused and
counted nowhere else. -/
theorem performAll_conserved_turnedDown :
    ∃ s : Scheduler Scripted, start? noWaiting (.plain .normal) = .ok s ∧
      ((s.performAll turnedDown).pool.outstanding, (s.performAll turnedDown).pool.submitted,
        (s.performAll turnedDown).pool.rejected) = (1, 1, 1) ∧
      2 = 1 + (s.performAll turnedDown).pool.completed + 1 +
        (s.performAll turnedDown).tally (s.performAll turnedDown).brokeAtEnd +
        (s.performAll turnedDown).count Stage.isEntering ∧
      2 = 1 + (s.leftAtEntry turnedDown).length +
        (s.performAll turnedDown).count Stage.isEntering := by
  have hstart : start? noWaiting (.plain .normal) =
    .ok (.new noWaiting (.plain .normal) : Scheduler Scripted) := rfl
  have hconserved := performAll_conserved hstart turnedDown
  exact ⟨_, hstart, rfl, hconserved.total, hconserved.submitted⟩

end Scheduler

end Turnstile
