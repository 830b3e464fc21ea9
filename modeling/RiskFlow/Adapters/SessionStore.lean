import RiskFlow.Domain.Session
import RiskFlow.Lib.Leases

/-!
# SessionStore — the Redis-backed store of mapping sessions

The keys of the session namespace with their documents. A `save` writes
the whole session, whatever the key holds by then.
-/

namespace RiskFlow

open Lib

namespace RedisMappingSessionStore

def keyPrefix : String := "riskflow:session:"

/-- `save`. -/
def save (store : Dict String Json) (session : MappingSession) : Dict String Json :=
  store.set (keyPrefix ++ session.id) session.encode

/-- `get`. -/
def get (store : Dict String Json) (sessionId : String) : Option MappingSession :=
  (store.get? (keyPrefix ++ sessionId)).bind MappingSession.decode

/-- `delete`. -/
def delete (store : Dict String Json) (sessionId : String) : Dict String Json :=
  store.erase (keyPrefix ++ sessionId)

/-- Two sessions have two keys. -/
theorem key_ne {sessionId other : String} (h : sessionId ≠ other) :
    keyPrefix ++ sessionId ≠ keyPrefix ++ other :=
  fun heq => h ((String.append_right_inj _).mp heq)

@[simp] theorem get_save (store : Dict String Json) (session : MappingSession) :
    get (save store session) session.id = some session.stored := by
  simp [get, save, MappingSession.decode_encode]

theorem get_save_ne (store : Dict String Json) {session : MappingSession} {sessionId : String}
    (h : session.id ≠ sessionId) : get (save store session) sessionId = get store sessionId := by
  rw [get, save, Dict.get?_set_ne _ _ (key_ne h), get]

@[simp] theorem get_delete (store : Dict String Json) (sessionId : String) :
    get (delete store sessionId) sessionId = none := by
  simp [get, delete]

/-- A deletion gives no key a session it had not. -/
theorem get_of_get_delete {store : Dict String Json} {deleted sessionId : String}
    {session : MappingSession} (h : get (delete store deleted) sessionId = some session) :
    get store sessionId = some session := by
  by_cases heq : deleted = sessionId
  · subst heq
    rw [get_delete] at h
    cases h
  · rwa [get, delete, Dict.get?_erase, if_neg (key_ne heq)] at h

/-! ## With the clock -/

/-- `DEFAULT_TTL`, in seconds. -/
def defaultTtl : ℚ := 3600

/-- `save` at a moment: `setex` with the TTL. -/
def saveAt (store : Dict String (Leased Json ℚ)) (now : ℚ) (session : MappingSession) :
    Dict String (Leased Json ℚ) :=
  Leases.setex store now defaultTtl (keyPrefix ++ session.id) session.encode

/-- `get` at a moment. -/
def getAt (store : Dict String (Leased Json ℚ)) (now : ℚ) (sessionId : String) :
    Option MappingSession :=
  (Leases.get store now (keyPrefix ++ sessionId)).bind MappingSession.decode

/-- A saved session is there for the TTL. -/
theorem getAt_saveAt_self (store : Dict String (Leased Json ℚ)) (now later : ℚ)
    (session : MappingSession) :
    getAt (saveAt store now session) later session.id =
      if later < now + defaultTtl then some session.stored else none := by
  rw [getAt, saveAt, Leases.get_setex_self]
  split
  · exact session.decode_encode
  · rfl

theorem getAt_saveAt_ne (store : Dict String (Leased Json ℚ)) (now later : ℚ)
    {session : MappingSession} {sessionId : String} (h : session.id ≠ sessionId) :
    getAt (saveAt store now session) later sessionId = getAt store later sessionId := by
  rw [getAt, saveAt, Leases.get_setex_ne _ _ _ _ _ _ (key_ne h), getAt]

end RedisMappingSessionStore

end RiskFlow
