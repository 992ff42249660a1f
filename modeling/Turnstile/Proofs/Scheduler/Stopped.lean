import Turnstile.Proofs.Scheduler.Conservation
import Turnstile.Proofs.Scheduler.Locality
import Turnstile.Proofs.Scheduler.Priority
import Turnstile.Proofs.Scheduler.Refusal

/-!
# Stopped schedulers

What holds of a scheduler from its stop on, whatever moves are made. It stays stopped, nobody
waits, nobody gets a slot and nobody is accepted. Those who were taken out of the queue are refused
one after the other, in the order of service, and whoever asks for a slot is refused as well.

Before the stop nobody is refused because of it.
-/

namespace Turnstile

namespace Scheduler

open Request (report)

variable {σ : Type} [Exchange σ] {s s' : Scheduler σ} {m : Move σ} {n : Nat} {r r' : Request σ}

/-! ## From the stop on -/

theorem Change.of_stopped (hb : s.pool.Balanced) (h : Change s m s')
    (hstopped : s.pool.stopped = true) :
    s'.pool.stopped = true ∧ s'.pool.live ≤ s.pool.live := by
  rcases h.pool hb with hsame | hstep
  · rw [hsame]
    exact ⟨hstopped, Nat.le_refl _⟩
  · exact hstep.of_stopped hstopped

theorem Shift.stopped {input : Request.Input} {told : List Happening} {p : Pool}
    {jobs draining : List Nat} (h : Shift s r input r' told p jobs draining) :
    p.stopped = s.pool.stopped := by
  cases h with
  | place h hp | queue h hp => rw [Pool.enroll_frame hp]
  | finish h => cases (Request.finish s.hooks r).1 <;> rfl
  | rank h hp =>
    obtain ⟨found, -, rfl⟩ := Option.map_eq_some_iff.mp hp
    rfl
  | _ => rfl

theorem Change.stopped_of_ne (hb : s.pool.Balanced) (h : Change s m s') (hm : m ≠ .stop) :
    s'.pool.stopped = s.pool.stopped := by
  cases h with
  | stay permits quiet => rfl
  | arrive h => rfl
  | shift permits hr others h => exact h.stopped
  | release h hr hstage => rw [release_eq hb, restageAll_pool, hb.promoted_release.frame]
  | stop h => exact absurd h hm

theorem Reachable.of_stopped (h : s.Reachable) (hstopped : s.pool.stopped = true)
    (later : List (Move σ)) :
    (s.performAll later).pool.stopped = true ∧ (s.performAll later).pool.live ≤ s.pool.live := by
  induction later generalizing s with
  | nil => exact ⟨hstopped, Nat.le_refl _⟩
  | cons m later ih =>
    have hnow := (h.change m).of_stopped h.sound.balanced hstopped
    have hrest := ih (h.move m) hnow.1
    exact ⟨hrest.1, hrest.2.trans hnow.2⟩

theorem Reachable.ne_queued_of_stopped (h : s.Reachable) (hstopped : s.pool.stopped = true)
    (hr : s.requests[n]? = some r) : r.stage ≠ .queued := by
  intro hqueued
  have hmem := (h.placed.mem_ordinals h.sound.balanced).mpr ⟨r, hr, hqueued⟩
  have hsize := h.sound.balanced.size_of_stopped hstopped
  rw [← Queue.length_ordinals] at hsize
  exact absurd hsize (Nat.ne_of_gt (List.length_pos_of_mem hmem))

omit [Exchange σ] in
theorem stop_of_stopped (hstopped : s.pool.stopped = true) : s.stop = s := by
  rw [stop_eq, Pool.stop_of_stopped hstopped]
  simp

/-! ## Places -/

omit [Exchange σ] in
theorem placeOf?_absorb {told : List Happening} {pool : Pool} {jobs draining permits : List Nat}
    (hs : s.Numbered) (hr : s.requests[n]? = some r) (ho : r'.ordinal = r.ordinal) (k : Nat) :
    ({ s with pool, jobs, draining, permits }.absorb (r', told)).placeOf? k =
      if n = k then some r'.stage.place else s.placeOf? k := by
  have hget := hs.getElem?_put (n := k) hr ho
  refine (congrArg (Option.map (·.stage.place)) hget).trans ?_
  split <;> rfl

/-- A request that makes a move in a stopped scheduler stays where it is or goes outwards: from the
jobs to a worker, from there away, and out. -/
theorem Shift.place_of_stopped {input : Request.Input} {told : List Happening} {p : Pool}
    {jobs draining : List Nat} {kind : Place → Bool} (hw : r.WellFormed)
    (h : Shift s r input r' told p jobs draining) (hstopped : s.pool.stopped = true)
    (outside : kind .outside = false) (worker : kind .worker = true → kind .job = true)
    (hkind : kind r'.stage.place = true) : kind r.stage.place = true := by
  cases h with
  | own h =>
    rw [(h.kept hw).place] at hkind
    exact hkind
  | passGate h =>
    rw [h]
    exact hkind
  | fail h =>
    rw [h]
    exact hkind
  | place h hp | queue h hp =>
    rw [Pool.enroll_of_stopped hstopped] at hp
    cases hp
  | @decline admission reason h hp =>
    rw [h]
    cases admission <;> exact hkind
  | pickUp h hj =>
    rw [h]
    exact worker hkind
  | rank h hp => exact hkind
  | _ =>
    rw [Stage.place, outside] at hkind
    cases hkind

theorem Change.placeOf?_of_stopped {kind : Place → Bool} (hs : s.Sound) (h : Change s m s')
    (hstopped : s.pool.stopped = true) (outside : kind .outside = false)
    (worker : kind .worker = true → kind .job = true)
    (away : kind .away = true → kind .worker = true)
    (hkind : (s'.placeOf? n).any kind = true) : (s.placeOf? n).any kind = true := by
  cases h with
  | stay permits quiet => exact hkind
  | arrive hm =>
    rw [placeOf?, Scheduler.arrive, Array.getElem?_push] at hkind
    split at hkind
    · rw [Option.map_some, Option.any_some] at hkind
      exact absurd (hkind.symm.trans outside) (by simp)
    · exact hkind
  | @shift k r r' told p jobs draining permits hr others h =>
    rw [placeOf?_absorb hs.numbered hr (h.step.kept (hs.wellFormed hr)).1] at hkind
    split at hkind
    next hkn =>
      rw [← hkn, placeOf?, hr, Option.map_some, Option.any_some]
      exact h.place_of_stopped (hs.wellFormed hr) hstopped outside worker hkind
    · exact hkind
  | @release k r exit hm hr h =>
    rw [release_eq hs.balanced, Pool.release_of_stopped hstopped] at hkind
    have hget := hs.numbered.getElem?_put (r := { r with stage := .departed exit }) (n := n) hr
      (by rfl)
    have hplace : (s.put { r with stage := .departed exit }).placeOf? n =
        if k = n then some .away else s.placeOf? n := by
      rw [placeOf?, hget]
      split <;> rfl
    rw [restageAll_nil] at hkind
    change ((s.put { r with stage := .departed exit }).placeOf? n).any kind = true at hkind
    rw [hplace] at hkind
    split at hkind
    next hkn =>
      rw [← hkn, placeOf?, hr, Option.map_some, h]
      exact away hkind
    · exact hkind
  | stop hm =>
    rw [stop_of_stopped hstopped] at hkind
    exact hkind

theorem Reachable.placeOf?_of_stopped {kind : Place → Bool} (h : s.Reachable)
    (hstopped : s.pool.stopped = true) (outside : kind .outside = false)
    (worker : kind .worker = true → kind .job = true)
    (away : kind .away = true → kind .worker = true) (later : List (Move σ))
    (hkind : ((s.performAll later).placeOf? n).any kind = true) :
    (s.placeOf? n).any kind = true := by
  induction later generalizing s with
  | nil => exact hkind
  | cons m later ih =>
    have hchange := h.change m
    have hnow := ih (h.move m) (hchange.of_stopped h.sound.balanced hstopped).1 hkind
    exact hchange.placeOf?_of_stopped h.sound hstopped outside worker away hnow

/-! ## Asking for a slot -/

theorem perform_asking (c : Circumstances) {admission : Admission}
    (hstage : r.stage = admission.stage) (m : Move σ) :
    (c.perform r m).2 = [] ∧ (c.perform r m).1.program = r.program ∧
      ((c.perform r m).1.stage = r.stage ∧ (∀ k, m ≠ .advance k) ∨
        (c.perform r m).1.stage = c.entry admission) := by
  cases m with
  | advance n =>
    rw [c.perform_of_asking hstage]
    exact ⟨rfl, rfl, .inr rfl⟩
  | deliver n direction events =>
    cases direction <;> exact ⟨rfl, rfl, .inl ⟨rfl, by simp⟩⟩
  | wake n =>
    rw [Circumstances.perform]
    split <;> exact ⟨rfl, rfl, .inl ⟨rfl, by simp⟩⟩
  | forget n =>
    rw [Circumstances.perform, Circumstances.forget, hstage]
    cases admission <;> exact ⟨rfl, rfl, .inl ⟨rfl, by simp⟩⟩
  | reprioritize n qos =>
    rw [Circumstances.perform]
    split <;> exact ⟨rfl, rfl, .inl ⟨rfl, by simp⟩⟩
  | _ => exact ⟨rfl, rfl, .inl ⟨rfl, by simp⟩⟩

/-- A request that asks for a slot goes on asking, or gets to where the pool sends it; a move of its
own does that. Nothing is told of it. -/
theorem Reachable.asking_perform (h : s.Reachable) {admission : Admission}
    (hr : s.requests[n]? = some r) (hstage : r.stage = admission.stage) (m : Move σ) :
    ∃ r', (s.perform m).requests[n]? = some r' ∧ (s.perform m).history n = s.history n ∧
      r'.program = r.program ∧
      (r'.stage = r.stage ∧ m.isOwn n = false ∨ r'.stage = s.entry r admission) := by
  have hown (hne : m ≠ .advance n) : m.isOwn n = false :=
    Bool.eq_false_iff.mpr (Move.isOwn_iff.not.mpr hne)
  by_cases htarget : m.target? = some n
  · have haffects := h.affects htarget hr
    obtain ⟨hnothing, hprogram, hstage'⟩ := perform_asking (s.circumstances r) hstage m
    refine ⟨_, haffects.self, ?_, hprogram, ?_⟩
    · rw [haffects.told, hnothing, List.append_nil]
    · exact hstage'.imp_left fun hsame ↦ ⟨hsame.1, hown (hsame.2 n)⟩
  · have hne : r.stage ≠ .drained := by rw [hstage]; cases admission <;> exact Stage.noConfusion
    obtain ⟨r', hr', hrestaged, hhistory⟩ := h.bystander htarget hr hne
    rcases hrestaged with rfl | ⟨hqueued, -⟩
    · refine ⟨r', hr', hhistory, rfl, .inl ⟨rfl, hown ?_⟩⟩
      rintro rfl
      exact htarget rfl
    · rw [hstage] at hqueued
      cases admission <;> cases hqueued

omit [Exchange σ] in
theorem entry_of_stopped (hstopped : s.pool.stopped = true) (r : Request σ)
    (admission : Admission) :
    s.entry r admission = .refusing .shutdown (admission = .resumed) := by
  rw [entry, Pool.enroll_of_stopped hstopped]

/-! ## Before the stop -/

/-- The request was refused because of the stop, or is about to be. -/
def dismissed (s : Scheduler σ) (n : Nat) : Bool :=
  s.requests[n]?.any (·.stage.refusedFor? = some .shutdown)

omit [Exchange σ] in
theorem dismissed_eq_true_iff : s.dismissed n = true ↔
    ∃ r, s.requests[n]? = some r ∧ r.stage.refusedFor? = some .shutdown := by
  simp [dismissed, Option.any_eq_true]

omit [Exchange σ] in
theorem stopped_of_entry {admission : Admission} (hb : s.pool.Balanced)
    (hindex : s.pool.queue.index[r.rank.ordinal]? = none)
    (hentry : (s.entry r admission).refusedFor? = some .shutdown) : s.pool.stopped = true := by
  cases hpool : s.pool.enroll r.rank admission with
  | ok placed =>
    obtain ⟨placement, pool⟩ := placed
    rw [entry, hpool] at hentry
    cases placement <;> cases hentry
  | error reason =>
    rw [entry, hpool] at hentry
    cases hentry
    have hobjection := (hb.enroll_eq_error_iff admission hindex).mp hpool
    rcases hb.objection?_eq_some_iff.mp hobjection with ⟨-, hstopped⟩ | ⟨hcapacity, -⟩
    · exact hstopped
    · cases hcapacity

theorem Reachable.stop_of_drained (h : s.Reachable) (hr : s.requests[n]? = some r)
    (hqueued : r.stage = .queued) (hr' : (s.perform m).requests[n]? = some r')
    (hdrained : r'.stage = .drained) : m = .stop := by
  have hmem := ((h.move m).placed.mem_draining hr').mpr hdrained
  rw [(h.lists m).draining, List.mem_append] at hmem
  rcases hmem with hmem | hmem
  · have hdrained' := (h.placed.mem_draining hr).mp (List.mem_of_mem_drop hmem)
    rw [hqueued] at hdrained'
    cases hdrained'
  · cases m with
    | stop => rfl
    | _ => cases hmem

omit [Exchange σ] in
theorem stopped_stop (s : Scheduler σ) : s.stop.pool.stopped = true := by
  rw [stop_eq, restageAll_pool]
  cases hstopped : s.pool.stopped with
  | true => rw [Pool.stop_of_stopped hstopped, hstopped]
  | false => rw [Pool.stop_of_running hstopped]

/-- A request that comes to be refused because of the stop was queued when it came, or asks a
stopped scheduler for a slot. -/
theorem Reachable.of_dismissed (h : s.Reachable) (hbefore : s.dismissed n = false)
    (hafter : (s.perform m).dismissed n = true) :
    ∃ r, s.requests[n]? = some r ∧
      (r.stage = .queued ∧ m = .stop ∨
        s.pool.stopped = true ∧ (r.stage = .arriving ∨ r.stage = .returning)) := by
  have hs := h.sound
  obtain ⟨r', hr', hrefused⟩ := dismissed_eq_true_iff.mp hafter
  by_cases hn : n < s.requests.size
  · have hr := Array.getElem?_eq_getElem hn
    generalize s.requests[n] = r at hr
    obtain ⟨q, told, hq, -, hstep⟩ := (h.change m).step hs hr
    cases hr'.symm.trans hq
    -- whoever was refused for another reason stays refused for that reason
    have hserved : r.stage.refusedFor? = none := by
      cases hreason : r.stage.refusedFor? with
      | none => rfl
      | some reason =>
        cases hrefused.symm.trans (hstep.refusedFor?_of_some hreason)
        rw [dismissed, hr, Option.any_some, hreason] at hbefore
        simp at hbefore
    have asked (admission : Admission) (hstage : r.stage = admission.stage) :
        s.pool.stopped = true := by
      obtain ⟨q, hq, -, -, hstage'⟩ := h.asking_perform hr hstage m
      cases hr'.symm.trans hq
      rcases hstage' with ⟨hsame, -⟩ | hentry
      · rw [hsame, hserved] at hrefused
        cases hrefused
      · rw [hentry] at hrefused
        exact stopped_of_entry hs.balanced (h.index_asking admission hr hstage) hrefused
    refine ⟨r, hr, ?_⟩
    rcases hstep.refusedFor?_of_none (hs.wellFormed hr) hserved hrefused with
      hasks | hasks | ⟨hqueued, hdrained⟩
    · exact .inr ⟨asked .fresh hasks, .inl hasks⟩
    · exact .inr ⟨asked .resumed hasks, .inr hasks⟩
    · exact .inl ⟨hqueued, h.stop_of_drained hr hqueued hr' hdrained⟩
  · obtain ⟨rfl, exchange, program, harrive⟩ :=
      (h.change m).arrived hs (Nat.le_of_not_lt hn) hr'
    rw [harrive, (h.arrival exchange program).1] at hr'
    cases hr'
    cases hrefused

theorem Reachable.dismissed_of_running (h : s.Reachable) (hrunning : s.pool.stopped = false)
    (n : Nat) : s.dismissed n = false := by
  induction h with
  | start valid hooks => simp [dismissed, new]
  | @move s h m ih =>
    have hbefore : s.pool.stopped = false := by
      refine Bool.eq_false_iff.mpr fun hstopped ↦ ?_
      rw [((h.change m).of_stopped h.sound.balanced hstopped).1] at hrunning
      cases hrunning
    refine Bool.eq_false_iff.mpr fun hdismissed ↦ ?_
    obtain ⟨r, -, ⟨-, rfl⟩ | ⟨hstopped, -⟩⟩ := h.of_dismissed (ih hbefore) hdismissed
    · rw [perform, stopped_stop] at hrunning
      cases hrunning
    · rw [hbefore] at hstopped
      cases hstopped

theorem Reachable.draining_of_running (h : s.Reachable) (hrunning : s.pool.stopped = false) :
    s.draining = [] := by
  refine List.eq_nil_iff_forall_not_mem.mpr fun n hn ↦ ?_
  obtain ⟨r, hr, hplace⟩ := Option.map_eq_some_iff.mp ((h.placed.draining n).mp hn)
  have hdismissed : s.dismissed n = true := by
    rw [dismissed, hr, Option.any_some, Stage.place_eq_drain.mp hplace]
    rfl
  rw [h.dismissed_of_running hrunning] at hdismissed
  cases hdismissed

theorem Reachable.dismissed_perform (h : s.Reachable) (hdismissed : s.dismissed n = true)
    (m : Move σ) : (s.perform m).dismissed n = true := by
  obtain ⟨r, hr, hrefused⟩ := dismissed_eq_true_iff.mp hdismissed
  obtain ⟨r', told, hr', -, hstep⟩ := (h.change m).step h.sound hr
  exact dismissed_eq_true_iff.mpr ⟨r', hr', hstep.refusedFor?_of_some hrefused⟩

theorem Reachable.exists_asking (h : s.Reachable) (hstopped : s.pool.stopped = true)
    {later : List (Move σ)} (hbefore : s.dismissed n = false)
    (hafter : (s.performAll later).dismissed n = true) :
    ∃ earlier, earlier <+: later ∧ ∃ r, (s.performAll earlier).requests[n]? = some r ∧
      (r.stage = .arriving ∨ r.stage = .returning) := by
  induction later generalizing s with
  | nil => exact absurd (hbefore.symm.trans hafter) (by simp)
  | cons m later ih =>
    cases hnow : (s.perform m).dismissed n with
    | true =>
      obtain ⟨r, hr, ⟨hqueued, -⟩ | ⟨-, hasks⟩⟩ := h.of_dismissed hbefore hnow
      · exact absurd hqueued (h.ne_queued_of_stopped hstopped hr)
      · exact ⟨[], List.nil_prefix, r, hr, hasks⟩
    | false =>
      have hstopped' := ((h.change m).of_stopped h.sound.balanced hstopped).1
      obtain ⟨earlier, hprefix, r, hr, hasks⟩ := ih (h.move m) hstopped' hnow hafter
      exact ⟨m :: earlier, List.cons_prefix_cons.mpr ⟨rfl, hprefix⟩, r, hr, hasks⟩

/-! ## Those who are refused -/

/-- In the run from `s` to `t` nothing was told of the request with the ordinal `n`, and its program
is as it was. It has come to `stage`. -/
def Rests (s t : Scheduler σ) (n : Nat) (stage : Stage) : Prop :=
  ∃ r r', s.requests[n]? = some r ∧ t.requests[n]? = some r' ∧ r'.stage = stage ∧
    r'.program = r.program ∧ t.history n = s.history n

/-- In the run from `s` to `t` the request with the ordinal `n` was refused because of the stop: its
exchange was, this once, and since then only cleaners were heard of. Its program is as it was. -/
def Refused (s t : Scheduler σ) (n : Nat) : Prop :=
  ∃ r r' fault? swept, s.requests[n]? = some r ∧ t.requests[n]? = some r' ∧
    r'.stage = .gone (.refused .shutdown) ∧ r'.program = r.program ∧
    t.history n = s.history n ++ report s.hooks (.rejected n Refusal.shutdown.message) ::
      .call (.reject .shutdown fault?) :: swept ∧ (∀ x ∈ swept, x.ofCleanup = true) ∧
    Request.endingsOf (t.history n) = [.refused .shutdown]

omit [Exchange σ] in
theorem Rests.trans {u : Scheduler σ} {stage stage' : Stage} (h : Rests s s' n stage)
    (h' : Rests s' u n stage') : Rests s u n stage' := by
  obtain ⟨r, r', hr, hr', -, hprogram, hhistory⟩ := h
  obtain ⟨q, q', hq, hq', hstage, hprogram', hhistory'⟩ := h'
  cases hr'.symm.trans hq
  exact ⟨r, q', hr, hq', hstage, hprogram'.trans hprogram, hhistory'.trans hhistory⟩

omit [Exchange σ] in
theorem Rests.refused {u : Scheduler σ} {stage : Stage} (h : Rests s s' n stage)
    (hooks : s'.hooks = s.hooks) (h' : Refused s' u n) : Refused s u n := by
  obtain ⟨r, r', hr, hr', -, hprogram, hhistory⟩ := h
  obtain ⟨q, q', fault?, swept, hq, hq', hgone, hprogram', hhistory', hswept⟩ := h'
  cases hr'.symm.trans hq
  rw [hhistory, hooks] at hhistory'
  exact ⟨r, q', fault?, swept, hr, hq', hgone, hprogram'.trans hprogram, hhistory', hswept⟩

/-- A request that is to be refused because of the stop rests until it is. -/
theorem Reachable.refusedOfStop (h : s.Reachable) (hr : s.requests[n]? = some r)
    (hrefusal : r.stage.refusal? = some .shutdown) (later : List (Move σ)) :
    Rests s (s.performAll later) n r.stage ∨ Refused s (s.performAll later) n := by
  obtain ⟨r', hr', hprogram, hcourse⟩ := h.refusing hr hrefusal later
  rcases hcourse with ⟨hstage, -, hhistory⟩ | ⟨hgone, fault?, swept, hhistory, hswept, -⟩
  · exact .inl ⟨r, r', hr, hr', hstage, hprogram, hhistory⟩
  · refine .inr ⟨r, r', fault?, swept, hr, hr', hgone, hprogram, hhistory, hswept, ?_⟩
    rw [(h.performAll later).endingsOf_history hr', hgone]
    rfl

theorem Reachable.draining_performAll (h : s.Reachable) (hstopped : s.pool.stopped = true)
    (later : List (Move σ)) :
    (s.performAll later).draining = s.draining.drop (later.countP Move.isDrain) := by
  induction later generalizing s with
  | nil => rfl
  | cons m later ih =>
    have hnow := (h.lists m).draining
    have hnobody : s.dismisses m = [] := by
      cases m with
      | stop => exact congrArg Prod.fst (Pool.stop_of_stopped hstopped)
      | _ => rfl
    rw [hnobody, List.append_nil] at hnow
    have hrest := ih (h.move m) ((h.change m).of_stopped h.sound.balanced hstopped).1
    rw [hnow, List.drop_drop] at hrest
    refine hrest.trans ?_
    rw [List.countP_cons]
    cases m.isDrain <;> simp [Nat.add_comm]

theorem Reachable.drained (h : s.Reachable) (hr : s.requests[n]? = some r)
    (hdrained : r.stage = .drained) (later : List (Move σ)) :
    n ∈ (s.performAll later).draining ∧ Rests s (s.performAll later) n .drained ∨
      n ∉ (s.performAll later).draining ∧ Refused s (s.performAll later) n := by
  have hcourse := h.refusedOfStop hr (by rw [hdrained]; rfl) later
  rw [hdrained] at hcourse
  refine hcourse.imp (fun hrests ↦ ⟨?_, hrests⟩) fun hrefused ↦ ⟨?_, hrefused⟩
  · obtain ⟨-, r', -, hr', hstage, -⟩ := hrests
    exact ((h.performAll later).placed.mem_draining hr').mpr hstage
  · obtain ⟨-, r', -, -, -, hr', hgone, -⟩ := hrefused
    rw [(h.performAll later).placed.mem_draining hr', hgone]
    exact Stage.noConfusion

/-- Whoever asks a stopped scheduler for a slot rests until it is declined, and then until it is
refused. -/
theorem Reachable.asking (h : s.Reachable) (hstopped : s.pool.stopped = true)
    {admission : Admission} (hr : s.requests[n]? = some r) (hstage : r.stage = admission.stage)
    (later : List (Move σ)) :
    (Rests s (s.performAll later) n admission.stage ∨
        Rests s (s.performAll later) n (.refusing .shutdown (admission = .resumed))) ∨
      Refused s (s.performAll later) n := by
  induction later generalizing s r with
  | nil => exact .inl (.inl ⟨r, r, hr, hr, hstage, rfl, rfl⟩)
  | cons m later ih =>
    obtain ⟨r₁, hr₁, hhistory₁, hprogram₁, hstage₁⟩ := h.asking_perform hr hstage m
    have hframe := (h.change m).frame h.sound.balanced
    have hstopped₁ := ((h.change m).of_stopped h.sound.balanced hstopped).1
    have hrests : Rests s (s.perform m) n r₁.stage := ⟨r, r₁, hr, hr₁, rfl, hprogram₁, hhistory₁⟩
    rcases hstage₁ with ⟨hstage₁, -⟩ | hstage₁
    · exact (ih (h.move m) hstopped₁ hr₁ (hstage₁.trans hstage)).imp
        (.imp hrests.trans hrests.trans) (hrests.refused hframe.2)
    · rw [entry_of_stopped hstopped] at hstage₁
      have hrest := (h.move m).refusedOfStop hr₁ (by rw [hstage₁]; rfl) later
      rw [hstage₁] at hrest
      exact hrest.imp (fun hdeclined ↦ .inr (hrests.trans hdeclined)) (hrests.refused hframe.2)

theorem Reachable.gone_of_refusing (h : s.Reachable) {reason : Refusal} {admitted : Bool}
    (hr : s.requests[n]? = some r) (hstage : r.stage = .refusing reason admitted)
    {later : List (Move σ)} (hown : 0 < later.countP (Move.isOwn n)) :
    ∃ r', (s.performAll later).requests[n]? = some r' ∧ r'.stage = .gone (.refused reason) := by
  induction later generalizing s r with
  | nil => cases hown
  | cons m later ih =>
    obtain ⟨r₁, told, hr₁, -, hstep⟩ := (h.change m).step h.sound hr
    rcases hstep.of_refusal (by rw [hstage]; rfl) with ⟨-, hstage₁, -⟩ | ⟨-, hgone, -⟩
    · have hother : m.isOwn n = false := by
        refine Bool.eq_false_iff.mpr fun hown' ↦ ?_
        rw [Move.isOwn_iff.mp hown', (advance_refusing h.sound.numbered hr hstage).1] at hr₁
        cases hr₁
        rw [hstage] at hstage₁
        cases hstage₁
      rw [List.countP_cons, hother] at hown
      exact ih (h.move m) hr₁ (hstage₁.trans hstage) hown
    · obtain ⟨r', hr', hgone', -⟩ := (h.move m).stays hr₁ hgone later
      exact ⟨r', hr', hgone'⟩

theorem Reachable.gone_of_asking (h : s.Reachable) (hstopped : s.pool.stopped = true)
    {admission : Admission} (hr : s.requests[n]? = some r) (hstage : r.stage = admission.stage)
    {later : List (Move σ)} (hown : 2 ≤ later.countP (Move.isOwn n)) :
    ∃ r', (s.performAll later).requests[n]? = some r' ∧ r'.stage = .gone (.refused .shutdown) := by
  induction later generalizing s r with
  | nil => cases hown
  | cons m later ih =>
    obtain ⟨r₁, hr₁, -, -, hstage₁⟩ := h.asking_perform hr hstage m
    have hstopped₁ := ((h.change m).of_stopped h.sound.balanced hstopped).1
    rcases hstage₁ with ⟨hstage₁, hother⟩ | hstage₁
    · rw [List.countP_cons, hother] at hown
      exact ih (h.move m) hstopped₁ hr₁ (hstage₁.trans hstage) hown
    · rw [entry_of_stopped hstopped] at hstage₁
      refine (h.move m).gone_of_refusing hr₁ hstage₁ ?_
      rw [List.countP_cons] at hown
      split at hown <;> omega

/-- Whoever asks a stopped scheduler for a slot is refused with two moves of its own, and rests
until then. -/
theorem Reachable.refused_of_asking (h : s.Reachable) (hstopped : s.pool.stopped = true)
    {admission : Admission} (hr : s.requests[n]? = some r) (hstage : r.stage = admission.stage)
    (later : List (Move σ)) :
    Refused s (s.performAll later) n ∨
      later.countP (Move.isOwn n) < 2 ∧ ∃ stage, Rests s (s.performAll later) n stage := by
  rcases h.asking hstopped hr hstage later with hrests | hrefused
  · right
    constructor
    · by_contra hown
      obtain ⟨r', hr', hgone⟩ := h.gone_of_asking hstopped hr hstage (Nat.le_of_not_lt hown)
      rcases hrests with ⟨-, q, -, hq, hstage', -⟩ | ⟨-, q, -, hq, hstage', -⟩ <;>
        cases hr'.symm.trans hq <;> rw [hgone] at hstage'
      · cases admission <;> cases hstage'
      · cases hstage'
    · exact hrests.elim (fun hrests ↦ ⟨_, hrests⟩) fun hrests ↦ ⟨_, hrests⟩
  · exact .inl hrefused

end Scheduler

end Turnstile
