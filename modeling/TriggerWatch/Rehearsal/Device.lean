/-
# The implementation in a rehearsal

A `Device` stands in for the implementation below a stack. It hands out handles in order, keeps
for each model the callback it was given last, and keeps the recipients who want to be told of its
death. A plan may tell it to fail, or what to reply.
-/

import TriggerWatch.Rehearsal.Script

namespace TriggerWatch

/-- The ticket of a callback, and the cookie that came with it. -/
structure Registration where
  ticket : Nat
  cookie : Int32
  deriving DecidableEq

/-- What the implementation keeps. -/
structure Device where
  nextHandle : ModelHandle := 1
  callbacks : List (ModelHandle × Registration) := []
  recipients : List (String × UInt64) := []
  deriving DecidableEq

namespace Device

/-- Keeps a callback for a model, in place of the one it has. -/
def register (d : Device) (h : ModelHandle) (registration : Registration) : Device :=
  { d with callbacks := (h, registration) :: d.callbacks.filter fun entry => entry.1 ≠ h }

/-- The callback that is kept for a model. -/
def callback? (d : Device) (h : ModelHandle) : Option Registration :=
  (d.callbacks.find? fun entry => entry.1 = h).map fun entry => entry.2

/-- Takes a call that is to fail. Linking and unlinking say no; everything else fails as told. -/
def refuse (d : Device) (request : Request Nat) (fault : CallError) : Device × Reply :=
  match request with
  | .linkToDeath _ _ | .unlinkToDeath _ => (d, .flag false)
  | _ => (d, .failed fault)

/-- Takes a call that is to go well. An answer that the plan gives is used if it is of the kind
that is asked for. -/
def accept (d : Device) (request : Request Nat) (answer : Option Reply) : Device × Reply :=
  match request with
  | .load _ ticket cookie =>
    match answer with
    | some (.handle h) => (d.register h { ticket, cookie }, .handle h)
    | _ =>
      let h := d.nextHandle
      ({ d with nextHandle := h + 1 }.register h { ticket, cookie }, .handle h)
  | .start h _ ticket cookie => (d.register h { ticket, cookie }, .done)
  | .properties =>
    match answer with
    | some (.properties p) => (d, .properties p)
    | _ => (d, .properties {})
  | .getParameter _ _ =>
    match answer with
    | some (.value value) => (d, .value value)
    | _ => (d, .value 42)
  | .parameterRange _ _ =>
    match answer with
    | some (.range range) => (d, .range range)
    | _ => (d, .range none)
  | .descriptor =>
    match answer with
    | some (.descriptor name) => (d, .descriptor name)
    | _ => (d, .descriptor "fake@2.3::ISoundTriggerHw")
  | .linkToDeath recipient cookie =>
    match answer with
    | some (.flag false) => (d, .flag false)
    | _ => ({ d with recipients := d.recipients ++ [(recipient, cookie)] }, .flag true)
  | .unlinkToDeath recipient =>
    ({ d with recipients := d.recipients.eraseP fun entry => entry.1 = recipient },
      .flag (d.recipients.any fun entry => entry.1 = recipient))
  | .unload _ | .stop _ | .stopAll | .requestState _ | .setParameter _ _ _ => (d, .done)

/-- Takes a call: what it changes, and what the reply is going to be. -/
def take (d : Device) (request : Request Nat) (plan : Plan) : Device × Reply :=
  match plan.fault with
  | some fault => d.refuse request fault
  | none => d.accept request plan.answer

end Device
end TriggerWatch
