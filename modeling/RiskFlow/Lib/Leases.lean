import RiskFlow.Lib.Dict

/-!
# Leases — entries that expire

A dictionary whose entries carry the moment they end. Reading takes the
time; an entry past its end is not there. Setting a key starts its lease
anew.
-/

namespace Lib

universe u v w
variable {κ : Type u} {ν : Type v} {τ : Type w} [DecidableEq κ] [LinearOrder τ] [Add τ]

/-- A value with the moment it expires. -/
structure Leased (ν : Type v) (τ : Type w) where
  value : ν
  expires : τ

namespace Leased

/-- The value, while the lease lasts. -/
def valueAt (l : Leased ν τ) (now : τ) : Option ν := if now < l.expires then some l.value else none

end Leased

namespace Leases

/-- `SETEX`: the key gets the value for `ttl` from now on. -/
def setex (d : Dict κ (Leased ν τ)) (now ttl : τ) (x : κ) (v : ν) : Dict κ (Leased ν τ) :=
  d.set x ⟨v, now + ttl⟩

/-- `GET` at a moment. -/
def get (d : Dict κ (Leased ν τ)) (now : τ) (x : κ) : Option ν :=
  (d.get? x).bind fun l => l.valueAt now

variable (d : Dict κ (Leased ν τ)) (now ttl later : τ) (x : κ) (v : ν)

/-- A lease lasts `ttl` from the last setting on. -/
@[simp] theorem get_setex_self :
    get (setex d now ttl x v) later x = if later < now + ttl then some v else none := by
  simp [get, setex, Leased.valueAt]

theorem get_setex_ne {y : κ} (h : x ≠ y) : get (setex d now ttl x v) later y = get d later y := by
  simp [get, setex, Dict.get?_set_ne _ _ h]

end Leases

end Lib
