/-
The service registry: which task provides which service.

A service has at most one provider. A task may also be named as the one that answers
messages to the registry itself (`Registry.registryTask`); while there is none, the kernel
answers them.
-/
import Microkernel.Error
import Microkernel.Message.Basic

namespace Microkernel

/-- The providers of services, and the task that stands for the registry. -/
structure Registry where
  /-- One entry for each service that has a provider. -/
  providers : List (Service × TaskId)
  registryTask : Option TaskId
  deriving DecidableEq

namespace Registry

/-- No providers and no registry task. -/
def empty : Registry where
  providers := []
  registryTask := none

/-- The provider of a service. -/
def provider? (r : Registry) (service : Service) : Option TaskId :=
  (r.providers.find? fun entry => entry.1 = service).map Prod.snd

/-- The registry without a provider for the service. -/
def withdraw (r : Registry) (service : Service) : Registry :=
  { r with providers := r.providers.filter fun entry => entry.1 ≠ service }

/-- Makes a task the provider of a service; answers the provider before it. -/
def register (r : Registry) (service : Service) (task : TaskId) : Option TaskId × Registry :=
  (r.provider? service,
    { r with providers := (service, task) :: (r.withdraw service).providers })

/-- Ends the task's provision of a service; answers whether it was the provider. -/
def unregister (r : Registry) (service : Service) (task : TaskId) : Bool × Registry :=
  if r.provider? service = some task then (true, r.withdraw service) else (false, r)

/-- Names the task that answers messages to the registry. -/
def setRegistryTask (r : Registry) (task : Option TaskId) : Registry :=
  { r with registryTask := task }

/-- The task that a recipient stands for. -/
def resolve (r : Registry) : Recipient → Except Error TaskId
  | .task id => .ok id
  | .service service =>
    match r.provider? service with
    | some id => .ok id
    | none => .error .recipientNotFound
  | .registry =>
    match r.registryTask with
    | some id => .ok id
    | none => .error .recipientNotFound

/-- The services that a task provides, by ascending number. -/
def servicesOf (r : Registry) (task : TaskId) : List Service :=
  Service.all.filter fun service => r.provider? service = some task

/-- Forgets everything that a task provides; answers the services it provided. -/
def remove (r : Registry) (task : TaskId) : List Service × Registry :=
  (r.servicesOf task,
    { providers := r.providers.filter fun entry => entry.2 ≠ task
      registryTask := if r.registryTask = some task then none else r.registryTask })

end Registry

end Microkernel
