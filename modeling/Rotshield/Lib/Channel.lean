/-! A bounded channel between two threads: what a send or a receive finds. -/
namespace Rotshield.Lib

structure Channel (α : Type) where
  capacity : Nat
  /-- Oldest first. -/
  queue : List α
  /-- The ends that are not dropped. -/
  sender : Bool
  receiver : Bool

inductive SendResult (α : Type) where
  | sent (c : Channel α)
  /-- The receiver is gone. -/
  | refused
  | full

inductive RecvResult (α : Type) where
  | received (a : α) (c : Channel α)
  /-- Nothing is queued and the sender is gone. -/
  | disconnected
  | empty

namespace Channel
variable {α : Type}

def new (capacity : Nat) : Channel α := ⟨capacity, [], true, true⟩

def dropSender (c : Channel α) : Channel α := { c with sender := false }

/-- What is queued goes with the receiver. -/
def dropReceiver (c : Channel α) : Channel α := { c with queue := [], receiver := false }

def push (c : Channel α) (a : α) : Channel α := { c with queue := c.queue ++ [a] }

def send (c : Channel α) (a : α) : SendResult α :=
  if c.receiver = false then .refused
  else if c.queue.length < c.capacity then .sent (c.push a)
  else .full

def recv (c : Channel α) : RecvResult α :=
  match c.queue with
  | a :: rest => .received a { c with queue := rest }
  | [] => if c.sender then .empty else .disconnected

/-- A send would wait. -/
def SendBlocks (c : Channel α) : Prop := c.receiver = true ∧ c.capacity ≤ c.queue.length

/-- A receive would wait. -/
def RecvBlocks (c : Channel α) : Prop := c.queue = [] ∧ c.sender = true

theorem send_full {c : Channel α} {a : α} (h : c.send a = .full) : c.SendBlocks := by
  unfold send at h
  split at h
  · cases h
  · rename_i hreceiver
    split at h
    · cases h
    · rename_i hroom
      exact ⟨by simpa using hreceiver, by omega⟩

theorem recv_empty {c : Channel α} (h : c.recv = .empty) : c.RecvBlocks := by
  unfold recv at h
  split at h
  · cases h
  · rename_i hqueue
    split at h
    · rename_i hsender
      exact ⟨hqueue, hsender⟩
    · cases h

theorem send_sent {c c' : Channel α} {a : α} (h : c.send a = .sent c') :
    c' = c.push a ∧ c.receiver = true ∧ c.queue.length < c.capacity := by
  unfold send at h
  split at h
  · cases h
  · rename_i hreceiver
    split at h
    · rename_i hroom
      cases h
      exact ⟨rfl, by simpa using hreceiver, hroom⟩
    · cases h

theorem send_refused {c : Channel α} {a : α} (h : c.send a = .refused) : c.receiver = false := by
  unfold send at h
  split at h
  · rename_i hreceiver
    exact hreceiver
  · split at h
    · cases h
    · cases h

theorem recv_received {c c' : Channel α} {a : α} (h : c.recv = .received a c') :
    ∃ rest, c.queue = a :: rest ∧ c' = { c with queue := rest } := by
  unfold recv at h
  split at h
  · rename_i b rest hqueue
    cases h
    exact ⟨rest, hqueue, rfl⟩
  · split at h
    · cases h
    · cases h

theorem recv_disconnected {c : Channel α} (h : c.recv = .disconnected) :
    c.queue = [] ∧ c.sender = false := by
  unfold recv at h
  split at h
  · cases h
  · rename_i hqueue
    split at h
    · cases h
    · rename_i hsender
      exact ⟨hqueue, by simpa using hsender⟩

/-- A sender that does not wait has its message taken or refused. -/
theorem send_cases {c : Channel α} (h : ¬ c.SendBlocks) (a : α) :
    (∃ c', c.send a = .sent c') ∨ c.send a = .refused := by
  cases hsend : c.send a with
  | sent c' => exact .inl ⟨c', rfl⟩
  | refused => exact .inr rfl
  | full => exact absurd (send_full hsend) h

theorem recv_cases {c : Channel α} (h : ¬ c.RecvBlocks) :
    (∃ a c', c.recv = .received a c') ∨ c.recv = .disconnected := by
  cases hrecv : c.recv with
  | received a c' => exact .inl ⟨a, c', rfl⟩
  | disconnected => exact .inr rfl
  | empty => exact absurd (recv_empty hrecv) h

theorem not_recvBlocks {c : Channel α} (h : c.queue ≠ [] ∨ c.sender = false) :
    ¬ c.RecvBlocks := by
  rintro ⟨hempty, hsender⟩
  rcases h with hqueue | hgone
  · exact hqueue hempty
  · rw [hgone] at hsender
    cases hsender

end Channel
end Rotshield.Lib
