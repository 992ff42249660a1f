import Turnstile.Proofs.Request.Finalization

/-!
# How a request is refused

A request that is refused is closed first; then the sensor hears of it, the exchange is told, and
last come the cleaners. The exchange is user code and may break off when it is told. Then the sweep
is left out, and since the request is closed nobody makes up for it: the cleaners that waited are
never started. So a refused request has started all its cleaners exactly if its exchange took the
refusal, or none of them waited (`Request.Refused.all_started_iff`).
-/

namespace Turnstile

open Cleanup (Op Round Rounds Sweeps eventsOf starts)

namespace Request

variable {σ : Type} {hooks : Hooks} {r r' : Request σ} {told early : List Happening}
  {ops : List Operation} {rounds : List (Round String)} {fault? : Option Fault} {reason : Refusal}

/-- What is told of a request that was refused, for which some operations were carried out: a part
in which nothing ends, then its sensor and its exchange hear of the refusal, and then come the
cleaners, unless the exchange broke off. -/
structure Refused (hooks : Hooks) (reason : Refusal) (r : Request σ) (told : List Happening)
    (ops : List Operation) (early : List Happening) (rounds : List (Round String))
    (fault? : Option Fault) : Prop where
  /-- The exchange hears of the refusal before the cleaners are swept. -/
  story : told = early ++ [report hooks (.rejected r.ordinal reason.message),
    .call (.reject reason fault?)] ++ (eventsOf rounds).flatMap (tellSwept hooks r.ordinal)
  /-- Before it come the operations. -/
  opening : Opening ops early
  /-- The cleaners are as many as the operations registered. -/
  size : r.dossier.cleaners.size = (ops.filterMap Operation.cleaner?).length
  /-- If the exchange took the refusal, the sweep starts the cleaners that were not started
  before. -/
  swept : fault? = none → Cleanup.SweptAfter ops rounds r.dossier.cleaners
  /-- If the exchange took the refusal, every cleaner is told of once, and no other. -/
  once : fault? = none → ∀ id,
    (starts (cleanersOf told)).count id = if id < r.dossier.cleaners.size then 1 else 0
  /-- If the exchange broke off, no cleaner is started any more. -/
  skips : fault? ≠ none → rounds = [] ∧ r.dossier.cleaners = Cleanup.after ops
  /-- The exchange is ended once: it is refused. -/
  ends : told.filter Happening.endsExchange = [.call (.reject reason fault?)]
  /-- Each cleaner that broke off in the sweep is reported once, whatever the sensor does. -/
  reports : told.filter Happening.reportsCleanup =
    rounds.filterMap fun round ↦ round.fault?.map fun fault ↦
      report hooks (.cleanupFailed r.ordinal (fault.messageWith hooks.kindName))

theorem Refused.cleanersOf_told (h : Refused hooks reason r told ops early rounds fault?) :
    cleanersOf told = (Cleanup.after ops).history.toList ++ eventsOf rounds := by
  rw [h.story, cleanersOf_append, cleanersOf_append, cleanersOf_tellSwept, h.opening.cleaners]
  exact congrArg (· ++ eventsOf rounds) (List.append_nil _)

/-- The cleaners of a refused request have all been started exactly if its exchange took the
refusal, or all had been started before. -/
theorem Refused.all_started_iff (h : Refused hooks reason r told ops early rounds fault?) :
    (∀ id < r.dossier.cleaners.size, (starts (cleanersOf told)).count id = 1) ↔
      fault? = none ∨ ∀ id, id ∉ (Cleanup.after ops).waiting := by
  by_cases hfault : fault? = none
  · refine iff_of_true (fun id hid ↦ ?_) (.inl hfault)
    rw [h.once hfault, if_pos hid]
  obtain ⟨hrounds, hcleaners⟩ := h.skips hfault
  -- nothing is told of the cleaners after the first part
  have htold : cleanersOf told = (Cleanup.after ops).history.toList := by
    rw [h.cleanersOf_told, hrounds]
    exact List.append_nil _
  have honce (id : Nat) : (starts (cleanersOf told)).count id +
      (if id ∈ (Cleanup.after ops).waiting then 1 else 0) =
        if id < (Cleanup.after ops).size then 1 else 0 := by
    rw [htold]
    exact (Cleanup.tracked_after ops).once id
  rw [hcleaners, or_iff_right hfault]
  constructor
  · intro hall id hid
    have hcount := honce id
    have hlt := (Cleanup.after ops).lt_size hid
    rw [hall id hlt, if_pos hid, if_pos hlt] at hcount
    omega
  · intro hnone id hid
    have hcount := honce id
    rw [if_neg (hnone id), if_pos hid] at hcount
    exact hcount

theorem Refused.congr (h : Refused hooks reason r told ops early rounds fault?)
    (hdossier : r'.dossier = r.dossier) (hordinal : r'.ordinal = r.ordinal) :
    Refused hooks reason r' told ops early rounds fault? where
  story := hordinal ▸ h.story
  opening := h.opening
  size := hdossier ▸ h.size
  swept := hdossier ▸ h.swept
  once := hdossier ▸ h.once
  skips := hdossier ▸ h.skips
  ends := h.ends
  reports := hordinal ▸ h.reports

variable [Exchange σ]

theorem refuse_of_fault (hopen : r.closed = false) (reason : Refusal) {fault : Fault}
    (h : (Exchange.reject r.exchange reason).1 = some fault) :
    Request.refuse hooks r reason =
      ({ r with closed := true, exchange := (Exchange.reject r.exchange reason).2 },
        [report hooks (.rejected r.ordinal reason.message),
          .call (.reject reason (some fault))]) := by
  unfold Request.refuse
  rw [if_neg (by simp [hopen])]
  dsimp only
  split
  next f exchange hreject =>
    rw [hreject] at h ⊢
    cases h
    rfl
  next exchange hreject =>
    rw [hreject] at h
    cases h

theorem refuse_of_taken (hopen : r.closed = false) (reason : Refusal)
    (h : (Exchange.reject r.exchange reason).1 = none) :
    Request.refuse hooks r reason =
      ({ (Request.sweep hooks r).1 with
          closed := true, exchange := (Exchange.reject r.exchange reason).2 },
        report hooks (.rejected r.ordinal reason.message) :: .call (.reject reason none) ::
          (Request.sweep hooks r).2) := by
  unfold Request.refuse
  rw [if_neg (by simp [hopen])]
  dsimp only
  split
  next f exchange hreject =>
    rw [hreject] at h
    cases h
  next exchange hreject =>
    rw [hreject]
    rfl

theorem Chronicle.refused_of_fault (h : Chronicle r told) (hopen : r.closed = false)
    (hops : r.dossier.cleaners = Cleanup.after ops) {stage : Stage} {fault : Fault}
    (hreject : (Exchange.reject r.exchange reason).1 = some fault) :
    Refused hooks reason { (Request.refuse hooks r reason).1 with stage }
      (told ++ (Request.refuse hooks r reason).2) ops told [] (some fault) := by
  have hopening := h.opening hopen hops
  obtain ⟨hends, hreports⟩ := hopening.quiet.filter
  rw [refuse_of_fault hopen reason hreject]
  exact {
    story := by simp [eventsOf]
    opening := hopening
    size := (congrArg Cleanup.size hops).trans (Cleanup.size_after ops)
    swept := nofun
    once := nofun
    skips := fun _ ↦ ⟨rfl, hops⟩
    ends := by
      rw [List.filter_append, hends]
      rfl
    reports := by
      rw [List.filter_append, hreports]
      rfl }

theorem Chronicle.refused_of_taken (h : Chronicle r told) (hopen : r.closed = false)
    (hops : r.dossier.cleaners = Cleanup.after ops) {stage : Stage}
    (hreject : (Exchange.reject r.exchange reason).1 = none) :
    ∃ rounds, Refused hooks reason { (Request.refuse hooks r reason).1 with stage }
      (told ++ (Request.refuse hooks r reason).2) ops told rounds none := by
  have hopening := h.opening hopen hops
  obtain ⟨rounds, hrounds, htold⟩ := exists_swept hooks h.tracked (h.opened hopen).1
  obtain ⟨hends, hreports⟩ := filter_tellSwept hooks hrounds.silent r.ordinal
  obtain ⟨hends', hreports'⟩ := hopening.quiet.filter
  rw [hops] at hrounds
  have hcleaners : (Request.sweep hooks r).1.dossier.cleaners = (Cleanup.after ops).sweep.2 :=
    congrArg (·.sweep.2) hops
  have hswept : Cleanup.SweptAfter ops rounds (Request.sweep hooks r).1.dossier.cleaners :=
    hcleaners ▸ hrounds.after
  rw [refuse_of_taken hopen reason hreject, htold]
  exact ⟨rounds, {
    story := by
      simp only [List.append_assoc]
      rfl
    opening := hopening
    size := hswept.registers.size
    swept := fun _ ↦ hswept
    once := fun _ id ↦ by
      rw [hswept.registers.size, ← hswept.once id, ← hopening.cleanersOf_swept hswept hooks
        r.ordinal, cleanersOf_append, cleanersOf_append]
      rfl
    skips := fun hfault ↦ absurd rfl hfault
    ends := by
      rw [List.filter_append, hends']
      exact congrArg (_ :: ·) hends
    reports := by
      rw [List.filter_append, hreports']
      exact hreports }⟩

theorem Chronicle.refused (h : Chronicle r told) (hopen : r.closed = false)
    (hops : r.dossier.cleaners = Cleanup.after ops) {stage : Stage} :
    ∃ rounds, Refused hooks reason { (Request.refuse hooks r reason).1 with stage }
      (told ++ (Request.refuse hooks r reason).2) ops told rounds
      (Exchange.reject r.exchange reason).1 := by
  cases hreject : (Exchange.reject r.exchange reason).1 with
  | some fault => exact ⟨[], h.refused_of_fault hopen hops hreject⟩
  | none => exact h.refused_of_taken hopen hops hreject

end Request

end Turnstile
