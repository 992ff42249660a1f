import Turnstile.Qos

/-!
# Ranks

The place of a request among those that wait: the higher class first, and within a class the one
that arrived earlier. Ranks are compared by the order of service, so the least rank is served
first.
-/

namespace Turnstile

/-- The place of a request among those that wait. -/
@[ext]
structure Rank where
  /-- The service class. -/
  qos : Qos
  /-- The position in the order of arrival. -/
  ordinal : Nat
  deriving DecidableEq, Repr

namespace Rank

/-- How many classes are served before this one. -/
def lateness (r : Rank) : Nat := 3 - r.qos.rank

/-- The order of service. -/
def order : Rank → Rank → Ordering := compareLex (compareOn lateness) (compareOn ordinal)

instance : Ord Rank := ⟨order⟩

instance : Std.TransCmp order := inferInstanceAs (Std.TransCmp (compareLex _ _))

theorem lateness_injective {p q : Qos} {m n : Nat} (h : lateness ⟨p, m⟩ = lateness ⟨q, n⟩) :
    p = q := by
  cases p <;> cases q <;> simp_all [lateness, Qos.rank]

instance : Std.LawfulEqCmp order where
  eq_of_compare {a b} h := by
    rw [order, compareLex_eq_eq] at h
    obtain ⟨pa, na⟩ := a
    obtain ⟨pb, nb⟩ := b
    have hq : lateness ⟨pa, na⟩ = lateness ⟨pb, nb⟩ := by simpa [compareOn] using h.1
    have hn : na = nb := by simpa [compareOn] using h.2
    rw [lateness_injective hq, hn]

/-- Served no later than. -/
def servedBefore (a b : Rank) : Bool := (order a b).isLE

end Rank

end Turnstile
