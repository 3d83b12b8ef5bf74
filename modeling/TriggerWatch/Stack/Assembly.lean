/-
# Putting a stack together

`assemble` puts layers on top of a base, from the last plan to the first, so that the first plan
gives the outermost layer.  It is `decorate`, for every kind of base and in every monad, so that
what a builder does besides building can be seen; the main statement, `assemble_append`, says that a
list of plans may be carried out in two parts, the later part first.

A `LayerPlan` is a builder (`HalDecoratorBuilder`).  That of an enforcer is
`SoundTriggerHw2EnforcerBuilder`: it has a configuration, and perhaps a reporter in place of the
log.  A plan may be built more than once, and each layer that comes of it has a table of its own.
-/

import TriggerWatch.Stack.Layer

namespace TriggerWatch

/-- Carries out building steps on top of a base, the last step first (`decorate`). -/
def assemble {m : Type → Type} [Monad m] {H : Type} (steps : List (H → m H)) (base : H) : m H :=
  steps.foldrM (fun build below => build below) base

/-- Without steps the base is left as it is. -/
@[simp] theorem assemble_nil {m : Type → Type} [Monad m] {H : Type} (base : H) :
    assemble (m := m) [] base = pure base := rfl

/-- The first step comes last. -/
@[simp] theorem assemble_cons {m : Type → Type} [Monad m] [LawfulMonad m] {H : Type}
    (step : H → m H) (steps : List (H → m H)) (base : H) :
    assemble (step :: steps) base = assemble steps base >>= step := by
  simp [assemble]

/-- **Two parts of a list of steps are carried out one after the other, the later part first.** So
the order of the steps is the order of the layers from the outside in, and building in parts makes
no difference. -/
theorem assemble_append {m : Type → Type} [Monad m] [LawfulMonad m] {H : Type}
    (xs ys : List (H → m H)) (base : H) :
    assemble (xs ++ ys) base = assemble ys base >>= fun below => assemble xs below := by
  induction xs with
  | nil => simp
  | cons x xs ih => simp [ih]

/-- A plan of an enforcer (`SoundTriggerHw2EnforcerBuilder`).  Without a recorder it reports to the
log. -/
structure EnforcerPlan where
  config : Config := {}
  recorder : Option String := none
  deriving DecidableEq

/-- The same plan with another recorder (`reporter`); the last one that was named counts. -/
def EnforcerPlan.reportTo (plan : EnforcerPlan) (name : String) : EnforcerPlan :=
  { plan with recorder := some name }

/-- Whom an enforcer of the plan tells about violations.  The configuration is for the log, and has
no say if there is a recorder. -/
def EnforcerPlan.reporter (plan : EnforcerPlan) : Reporter :=
  match plan.recorder with
  | some name => .recorder name
  | none => .journal plan.config

/-- A plan of a relay. -/
structure RelayPlan where
  tag : String
  swallows : Nat → Swallowable → Bool := fun _ _ => false

/-- A plan of a layer (`HalDecoratorBuilder`). -/
inductive LayerPlan where
  | enforcer (plan : EnforcerPlan)
  | relay (plan : RelayPlan)

/-- The part that a fresh layer plays.  Its table is empty, and nobody holds it. -/
def LayerPlan.role : LayerPlan → Role
  | .enforcer plan => .enforcer { reporter := plan.reporter }
  | .relay plan => .relay { tag := plan.tag, swallows := plan.swallows }

/-- Puts a fresh layer on top of the layers below (`build`); its number is the number of layers
below it.  A relay leaves its tag behind when it is put there. -/
def LayerPlan.build (plan : LayerPlan) (below : List Layer) :
    StateM (List String) (List Layer) := do
  if let .relay r := plan then
    modify (· ++ [r.tag])
  return { id := below.length, role := plan.role } :: below

/-- The layers of the plans, outermost first, and the tags in the order in which they were left. -/
def layersOf (plans : List LayerPlan) : List Layer × List String :=
  (assemble (plans.map LayerPlan.build) []).run []

end TriggerWatch
