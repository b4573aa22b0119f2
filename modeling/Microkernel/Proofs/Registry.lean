/-
What a history makes of the service registry.

A registry changes when a task registers for a service or withdraws, when a task ends, and when the
registry task is named (`RegistryEvent`). A task provides a service by the latest registration for
it, until it withdraws or ends (`Provided`).

* **`provider?_after`**: what one event makes of the provider of a service;
* **`provider?_foldl_empty`**: the provider of a service is the task that provides it by the
  history;
* **`registryTask_foldl`**: the registry task was named, and has not ended.

Design notes: a registry keeps its providers in a list, in which each service stands at most once
(`Registry.Unambiguous`). Otherwise the end of one provider would bring back another one.
-/
import Mathlib.Data.List.Induction
import Mathlib.Data.List.Nodup
import Microkernel.Registry

namespace Microkernel

/-- What changes a registry. -/
inductive RegistryEvent where
  | registered (service : Service) (task : TaskId)
  | withdrawn (service : Service) (task : TaskId)
  | ended (task : TaskId)
  | appointed (task : Option TaskId)
  deriving DecidableEq

namespace RegistryEvent

/-- The event ends what the task provides under the service, unless it is what begins it. -/
def Supersedes (service : Service) (task : TaskId) : RegistryEvent → Prop
  | .registered other _ => other = service
  | .withdrawn other who => other = service ∧ who = task
  | .ended who => who = task
  | .appointed _ => False

end RegistryEvent

/-- The latest registration for the service was that of the task, which has neither withdrawn nor
ended since. -/
def Provided (history : List RegistryEvent) (service : Service) (task : TaskId) : Prop :=
  ∃ before later, history = before ++ .registered service task :: later ∧
    ∀ event ∈ later, ¬ event.Supersedes service task

theorem not_provided_nil (service : Service) (task : TaskId) : ¬ Provided [] service task := by
  rintro ⟨before, later, h, -⟩
  simp at h

theorem provided_append_singleton {history : List RegistryEvent} {event : RegistryEvent}
    {service : Service} {task : TaskId} :
    Provided (history ++ [event]) service task ↔ event = .registered service task ∨
      Provided history service task ∧ ¬ event.Supersedes service task := by
  constructor
  · rintro ⟨before, later, h, hlater⟩
    rcases List.eq_nil_or_concat later with rfl | ⟨later, last, rfl⟩
    · exact .inl (List.singleton_inj.1 (List.append_inj_right' h rfl))
    · rw [List.concat_eq_append] at h hlater
      rw [← List.cons_append, ← List.append_assoc] at h
      obtain ⟨rfl, hlast⟩ := List.append_inj' h rfl
      obtain rfl := List.singleton_inj.1 hlast
      exact .inr ⟨⟨before, later, rfl, fun e he => hlater e (List.mem_append_left _ he)⟩,
        hlater event (List.mem_append_right _ (List.mem_singleton_self _))⟩
  · rintro (rfl | ⟨⟨before, later, rfl, hlater⟩, hevent⟩)
    · exact ⟨history, [], rfl, fun e he => by cases he⟩
    · refine ⟨before, later ++ [event], by simp, fun e he => ?_⟩
      rcases List.mem_append.1 he with he | he
      · exact hlater e he
      · obtain rfl := List.mem_singleton.1 he
        exact hevent

namespace Registry

variable {r : Registry} {service : Service} {task : TaskId}

/-- What an event makes of the registry. -/
def after (r : Registry) : RegistryEvent → Registry
  | .registered service task => (r.register service task).2
  | .withdrawn service task => (r.unregister service task).2
  | .ended task => (r.remove task).2
  | .appointed task => r.setRegistryTask task

/-- Each service stands in the registry at most once. -/
def Unambiguous (r : Registry) : Prop :=
  (r.providers.map Prod.fst).Nodup

theorem unambiguous_empty : empty.Unambiguous :=
  List.nodup_nil

theorem Unambiguous.withdraw (h : r.Unambiguous) (service : Service) :
    (r.withdraw service).Unambiguous :=
  h.sublist (List.filter_sublist.map Prod.fst)

theorem Unambiguous.after (h : r.Unambiguous) (event : RegistryEvent) :
    (r.after event).Unambiguous := by
  cases event with
  | registered service task =>
    refine List.nodup_cons.2 ⟨fun hin => ?_, h.withdraw service⟩
    obtain ⟨entry, hentry, rfl⟩ := List.mem_map.1 hin
    simpa using (List.mem_filter.1 hentry).2
  | withdrawn service task =>
    rw [Registry.after, unregister]
    split
    · exact h.withdraw service
    · exact h
  | ended task => exact h.sublist (List.filter_sublist.map Prod.fst)
  | appointed task => exact h

theorem Unambiguous.foldl (h : r.Unambiguous) (history : List RegistryEvent) :
    (history.foldl Registry.after r).Unambiguous := by
  induction history generalizing r with
  | nil => exact h
  | cons event rest ih => exact ih (h.after event)

/-! ### Who provides a service -/

theorem provider?_eq_some_iff (h : r.Unambiguous) :
    r.provider? service = some task ↔ (service, task) ∈ r.providers := by
  rw [provider?, Option.map_eq_some_iff]
  constructor
  · rintro ⟨⟨other, who⟩, hfind, rfl⟩
    obtain rfl : other = service := by simpa using List.find?_some hfind
    exact List.mem_of_find?_eq_some hfind
  · intro hin
    obtain ⟨entry, hentry⟩ : ∃ entry, (r.providers.find? fun entry => entry.1 = service) =
        some entry := Option.isSome_iff_exists.1 (List.find?_isSome.2 ⟨_, hin, by simp⟩)
    have hservice : entry.1 = service := by simpa using List.find?_some hentry
    obtain rfl := List.inj_on_of_nodup_map h (List.mem_of_find?_eq_some hentry) hin hservice
    exact ⟨_, hentry, rfl⟩

theorem mem_withdraw {entry : Service × TaskId} :
    entry ∈ (r.withdraw service).providers ↔ entry ∈ r.providers ∧ entry.1 ≠ service := by
  simp [withdraw]

/-- A task provides a service after an event if it has registered for it by the event, or provided
it before and the event does not end that. -/
theorem provider?_after (h : r.Unambiguous) (event : RegistryEvent) :
    (r.after event).provider? service = some task ↔ event = .registered service task ∨
      r.provider? service = some task ∧ ¬ event.Supersedes service task := by
  rw [provider?_eq_some_iff (h.after event)]
  cases event with
  | registered other who =>
    have hadded : (service, task) ∈ (r.after (.registered other who)).providers ↔
        (service, task) = (other, who) ∨ (service, task) ∈ (r.withdraw other).providers :=
      List.mem_cons
    rw [hadded, mem_withdraw, provider?_eq_some_iff h]
    simp only [RegistryEvent.Supersedes, RegistryEvent.registered.injEq, Prod.mk.injEq]
    grind
  | withdrawn other who =>
    simp only [RegistryEvent.Supersedes, reduceCtorEq, false_or]
    rw [after, unregister]
    by_cases hprovides : r.provider? other = some who
    · rw [if_pos hprovides, mem_withdraw, ← provider?_eq_some_iff h]
      refine and_congr_right fun htask => not_congr ⟨?_, fun he => he.1.symm⟩
      rintro rfl
      exact ⟨rfl, Option.some.inj (hprovides.symm.trans htask)⟩
    · -- who is not the provider withdraws nothing
      rw [if_neg hprovides, ← provider?_eq_some_iff h]
      refine ⟨fun htask => ⟨htask, ?_⟩, And.left⟩
      rintro ⟨rfl, rfl⟩
      exact hprovides htask
  | ended who =>
    have hkept : (service, task) ∈ (r.after (.ended who)).providers ↔
        (service, task) ∈ r.providers ∧ task ≠ who := by
      simp [after, remove]
    rw [hkept, provider?_eq_some_iff h]
    simp only [RegistryEvent.Supersedes]
    grind
  | appointed who =>
    have hsame : (r.after (.appointed who)).providers = r.providers := rfl
    rw [hsame, provider?_eq_some_iff h]
    simp [RegistryEvent.Supersedes]

/-- A task provides a service by what has happened, or has provided it before. -/
theorem provider?_foldl (h : r.Unambiguous) (history : List RegistryEvent) :
    (history.foldl after r).provider? service = some task ↔ Provided history service task ∨
      r.provider? service = some task ∧
        ∀ event ∈ history, ¬ event.Supersedes service task := by
  -- the latest event is decisive, so the history is taken apart at its end
  induction history using List.reverseRecOn with
  | nil => simp [not_provided_nil]
  | append_singleton history event ih =>
    rw [List.foldl_append, List.foldl_cons, List.foldl_nil, provider?_after (h.foldl history), ih,
      provided_append_singleton, List.forall_mem_append, List.forall_mem_singleton]
    tauto

/-- Nobody provides a service but by what has happened. -/
theorem provider?_foldl_empty (history : List RegistryEvent) :
    (history.foldl after empty).provider? service = some task ↔ Provided history service task := by
  rw [provider?_foldl unambiguous_empty]
  simp [provider?, empty]

/-- The registry task was named, or was there before and has not ended. -/
theorem registryTask_foldl {history : List RegistryEvent}
    (h : (history.foldl after r).registryTask = some task) :
    .appointed (some task) ∈ history ∨ r.registryTask = some task ∧ .ended task ∉ history := by
  induction history generalizing r with
  | nil => exact .inr ⟨h, List.not_mem_nil⟩
  | cons event rest ih =>
    rcases ih h with hin | ⟨hbefore, hrest⟩
    · exact .inl (List.mem_cons_of_mem _ hin)
    cases event with
    | registered service who => exact .inr ⟨hbefore, by simp [hrest]⟩
    | withdrawn service who =>
      refine .inr ⟨?_, by simp [hrest]⟩
      rw [after, unregister] at hbefore
      split at hbefore <;> exact hbefore
    | ended who =>
      have hkept : (if r.registryTask = some who then none else r.registryTask) = some task :=
        hbefore
      split at hkept
      · cases hkept
      · rename_i hother
        refine .inr ⟨hkept, fun hin => ?_⟩
        rcases List.mem_cons.1 hin with hended | hin
        · cases hended
          exact hother hkept
        · exact hrest hin
    | appointed who =>
      have hbefore : who = some task := hbefore
      exact .inl (hbefore ▸ List.mem_cons_self)

end Registry

end Microkernel
