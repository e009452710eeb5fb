import Mathlib.Data.Finset.Basic
import MyChat.Lib.Bytes

/-! Redis as its servers use it: subscriptions, online keys, and the messages
published but not yet handed to the observer thread of a subscriber. -/

namespace MyChat

/-- A message on its way to one server's observer thread. -/
structure Delivery where
  server : Nat
  channel : Int32
  message : Bytes
  deriving DecidableEq, Repr

/-- A channel is subscribed at most once by a server. -/
structure Redis where
  subs : List (Nat × Int32)
  nodup : subs.Nodup
  keys : Finset Int32
  inbox : List Delivery

namespace Redis

def empty : Redis := ⟨[], List.nodup_nil, ∅, []⟩

def subscribe (server : Nat) (channel : Int32) (r : Redis) : Redis :=
  { r with subs := r.subs.insert (server, channel), nodup := r.nodup.insert }

def unsubscribe (server : Nat) (channel : Int32) (r : Redis) : Redis :=
  { r with subs := r.subs.filter (· ≠ (server, channel)), nodup := r.nodup.filter _ }

/-- One copy for each subscriber of the channel, none when there is none. -/
def publish (channel : Int32) (message : Bytes) (r : Redis) : Redis :=
  { r with
    inbox := r.inbox ++
      (r.subs.filter (·.2 = channel)).map fun sub => ⟨sub.1, channel, cStr message⟩ }

def set (key : Int32) (r : Redis) : Redis := { r with keys := insert key r.keys }

def delete (key : Int32) (r : Redis) : Redis := { r with keys := r.keys.erase key }

/-- A server's connections close: what was subscribed and what is still on the
way to it go with them. -/
def disconnect (server : Nat) (r : Redis) : Redis :=
  { r with
    subs := r.subs.filter (·.1 ≠ server)
    nodup := r.nodup.filter _
    inbox := r.inbox.filter (·.server ≠ server) }

/-- The `k`-th pending delivery leaves for its server. -/
def take (k : Nat) (r : Redis) : Redis := { r with inbox := r.inbox.eraseIdx k }

/-- `Get(key)` finds a value. -/
def get (key : Int32) (r : Redis) : Bool := key ∈ r.keys

@[simp] theorem mem_subscribe {p q : Nat} {i k : Int32} {r : Redis} :
    (q, k) ∈ (r.subscribe p i).subs ↔ (q, k) = (p, i) ∨ (q, k) ∈ r.subs := by
  simp [subscribe, List.mem_insert_iff]

@[simp] theorem mem_unsubscribe {p q : Nat} {i k : Int32} {r : Redis} :
    (q, k) ∈ (r.unsubscribe p i).subs ↔ (q, k) ∈ r.subs ∧ (q, k) ≠ (p, i) := by
  simp only [unsubscribe, List.mem_filter, decide_eq_true_eq]

@[simp] theorem mem_disconnect {p q : Nat} {k : Int32} {r : Redis} :
    (q, k) ∈ (r.disconnect p).subs ↔ (q, k) ∈ r.subs ∧ q ≠ p := by
  simp only [disconnect, List.mem_filter, decide_eq_true_eq]

@[simp] theorem subs_publish (i : Int32) (m : Bytes) (r : Redis) :
    (r.publish i m).subs = r.subs := rfl
@[simp] theorem subs_set (i : Int32) (r : Redis) : (r.set i).subs = r.subs := rfl
@[simp] theorem subs_delete (i : Int32) (r : Redis) : (r.delete i).subs = r.subs := rfl
@[simp] theorem keys_subscribe (p : Nat) (i : Int32) (r : Redis) :
    (r.subscribe p i).keys = r.keys := rfl
@[simp] theorem keys_unsubscribe (p : Nat) (i : Int32) (r : Redis) :
    (r.unsubscribe p i).keys = r.keys := rfl
@[simp] theorem keys_publish (i : Int32) (m : Bytes) (r : Redis) :
    (r.publish i m).keys = r.keys := rfl
@[simp] theorem keys_set (i : Int32) (r : Redis) : (r.set i).keys = insert i r.keys := rfl
@[simp] theorem keys_delete (i : Int32) (r : Redis) : (r.delete i).keys = r.keys.erase i := rfl
@[simp] theorem inbox_subscribe (p : Nat) (i : Int32) (r : Redis) :
    (r.subscribe p i).inbox = r.inbox := rfl
@[simp] theorem inbox_unsubscribe (p : Nat) (i : Int32) (r : Redis) :
    (r.unsubscribe p i).inbox = r.inbox := rfl
@[simp] theorem subs_take (k : Nat) (r : Redis) : (r.take k).subs = r.subs := rfl
@[simp] theorem keys_take (k : Nat) (r : Redis) : (r.take k).keys = r.keys := rfl
@[simp] theorem inbox_set (i : Int32) (r : Redis) : (r.set i).inbox = r.inbox := rfl
@[simp] theorem inbox_delete (i : Int32) (r : Redis) : (r.delete i).inbox = r.inbox := rfl

end Redis

end MyChat
