import SchemaWalk.Table
import SchemaWalk.Text.Escape

/-! # Key-value stores

Where a walk is kept between sessions: texts by key. -/

namespace SchemaWalk

inductive StoreError where
  | invalidKey (key : String)
  | unavailable
  deriving DecidableEq, Repr

def StoreError.message : StoreError → String
  | invalidKey key => "invalid store key: " ++ Text.messageQuote key
  | unavailable => "store unavailable"

/-- Reading a key that was never set gives nothing; that is no error. A failed write may
leave its traces, so it gives a new store too. -/
class KeyValueStore (σ : Type) where
  get : σ → String → Except StoreError (Option String)
  set : σ → String → String → Except StoreError Unit × σ

structure Memory where
  entries : Table String String
  readable : Bool
  writable : Bool
  deriving DecidableEq

namespace Memory

def empty : Memory := ⟨∅, true, true⟩

def get (m : Memory) (key : String) : Except StoreError (Option String) :=
  if m.readable then .ok (m.entries.get? key) else .error .unavailable

def set (m : Memory) (key value : String) : Except StoreError Unit × Memory :=
  if m.writable then (.ok (), { m with entries := m.entries.insert key value })
  else (.error .unavailable, m)

instance : KeyValueStore Memory := ⟨get, set⟩

theorem get_set {m : Memory} (hr : m.readable) (hw : m.writable) (key value : String) :
    (m.set key value).2.get key = .ok (some value) := by
  simp [get, set, hr, hw]

end Memory

end SchemaWalk
