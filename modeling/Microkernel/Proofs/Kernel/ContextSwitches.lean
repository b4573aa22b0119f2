/-
The context switches of each core form one chain.

A core that switches saves where it is and loads where it goes on. The switches on a core are
`Wired` to its scheduler if the first one saves into the boot context, each other one saves into the
context that the one before has loaded, and the last one has loaded the context of the current task;
and if the address space that the core has loaded last is that of the current task.

* **`Wired.turned`**: the switches that a change of the current task calls for extend the chain;
* **`Chained.allWired`**: so do calls under the lock and what goes on between them;
* **`context_switches_chain`**: the switches of every core are wired after every run.

Design notes: a context is named by the top of its kernel stack, which the machine never hands out a
second time, while ids of tasks are used again. The tasks that are over are counted among those that
no two may have the same stack, as a switch may save into the context of one of them. What a core
has loaded is taken from what the machine records of loads, and not from the switches.
-/
import Mathlib.Data.List.Chain
import Microkernel.Proofs.Kernel.Links
import Microkernel.Proofs.Kernel.Runs

namespace Microkernel

/-- The switches lead from the boot context to the current task, each from where the one before has
led, and the address space that was loaded last is that of the current task. -/
structure Wired (l : List ContextSwitch) (loaded : List Nat) (s : Scheduler) : Prop where
  boot : ∀ sw, l.head? = some sw → sw.saved = none
  chain : l.IsChain fun sw sw' => sw'.saved = some sw.stackTop
  start : s.current = none → l = []
  current : ∀ id t, s.current = some id → s.task? id = some t →
    l.getLast?.map ContextSwitch.stackTop = some t.stack.top ∧ loaded.getLast? = some t.space

namespace Wired

variable {l l' : List ContextSwitch} {loaded : List Nat} {s s' : Scheduler} {c : CoreId}

theorem of_current_eq_none (h : s.current = none) : Wired [] [] s where
  boot sw hsw := by cases hsw
  chain := .nil
  start _ := rfl
  current id t hid := by
    rw [h] at hid
    cases hid

/-- The same task is current, with the same context. -/
theorem stays (h : Wired l loaded s) (hsame : s'.current = s.current)
    (hkept : ∀ id t', s.current = some id → s'.task? id = some t' →
      ∃ t, s.task? id = some t ∧ t'.context = t.context) : Wired l loaded s' where
  boot := h.boot
  chain := h.chain
  start hnone := h.start (hsame.symm.trans hnone)
  current id t' hid ht' := by
    rw [hsame] at hid
    obtain ⟨t, ht, hcontext⟩ := hkept id t' hid ht'
    obtain ⟨hstack, -, hspace⟩ := Context.mk.inj hcontext
    rw [hstack, hspace]
    exact h.current id t hid ht

/-- The first task is current. -/
theorem begins {id : TaskId} {t : Task} (hcurrent : s'.current = some id)
    (ht : s'.task? id = some t) (loaded : List Nat) :
    Wired [⟨c, none, t.stackPointer, t.stack.top, some t.space⟩] (loaded ++ [t.space]) s' where
  boot sw hsw := by
    cases hsw
    rfl
  chain := .singleton _
  start hnone := by
    rw [hcurrent] at hnone
    cases hnone
  current id' t' hid ht' := by
    obtain rfl : id = id' := Option.some.inj (hcurrent.symm.trans hid)
    obtain rfl : t = t' := Option.some.inj (ht.symm.trans ht')
    exact ⟨rfl, List.getLast?_concat⟩

/-- The chain goes on from one task to the next. -/
theorem passes {id next : TaskId} {t t' : Task} (h : Wired l loaded s)
    (hbefore : s.current = some id) (hleft : s.task? id = some t) (hafter : s'.current = some next)
    (hnext : s'.task? next = some t') :
    Wired (l ++ [⟨c, some t.stack.top, t'.stackPointer, t'.stack.top,
        if t.space = t'.space then none else some t'.space⟩])
      (loaded ++ if t.space = t'.space then [] else [t'.space]) s' := by
  obtain ⟨hstack, hspace⟩ := h.current id t hbefore hleft
  obtain ⟨last, hlast, htop⟩ := Option.map_eq_some_iff.1 hstack
  refine ⟨fun sw hsw => h.boot sw ?_, ?_, fun hnone => ?_, fun id' t₁ hid ht₁ => ?_⟩
  · -- the chain is not empty, so it has the same head
    cases l with
    | nil => cases hlast
    | cons first rest => exact hsw
  · refine List.isChain_append.2 ⟨h.chain, .singleton _, fun x hx y hy => ?_⟩
    obtain rfl : last = x := Option.some.inj (hlast.symm.trans hx)
    cases hy
    rw [htop]
  · rw [hafter] at hnone
    cases hnone
  · obtain rfl : next = id' := Option.some.inj (hafter.symm.trans hid)
    obtain rfl : t' = t₁ := Option.some.inj (hnext.symm.trans ht₁)
    refine ⟨by rw [List.getLast?_concat, Option.map_some], ?_⟩
    by_cases heq : t.space = t'.space
    · rw [if_pos heq, List.append_nil, hspace, heq]
    · rw [if_neg heq, List.getLast?_concat]

/-- The switches that a change of the current task calls for extend the chain, if what they ask for
is loaded. -/
theorem turned (h : Wired l loaded s) (ht : Turned c s s' l') :
    Wired (l ++ l') (loaded ++ l'.filterMap ContextSwitch.activated) s' := by
  cases ht with
  | stays hsame hkept =>
    rw [List.append_nil, List.filterMap_nil, List.append_nil]
    exact h.stays hsame hkept
  | begins hnone hcurrent ht =>
    rw [h.start hnone]
    exact .begins hcurrent ht loaded
  | @passes id next t t' hbefore hleft _ hafter hnext =>
    have hloaded : [(⟨c, some t.stack.top, t'.stackPointer, t'.stack.top,
          if t.space = t'.space then none else some t'.space⟩ : ContextSwitch)].filterMap
        ContextSwitch.activated = if t.space = t'.space then [] else [t'.space] := by
      split <;> rfl
    rw [hloaded]
    exact h.passes hbefore hleft hafter hnext

end Wired

namespace Kernel

variable {k k' : Kernel} {loaded : List (CoreId × Nat)}

/-- The switches on a core, oldest first. -/
def switchesOn (k : Kernel) (c : CoreId) : List ContextSwitch :=
  k.machine.switches.filter fun sw => decide (sw.core = c)

/-- The address spaces that a core has loaded, oldest first. -/
def loadedOn (c : CoreId) (loaded : List (CoreId × Nat)) : List Nat :=
  (loaded.filter fun load => decide (load.1 = c)).map Prod.snd

theorem loadedOn_append (c : CoreId) (loaded loaded' : List (CoreId × Nat)) :
    loadedOn c (loaded ++ loaded') = loadedOn c loaded ++ loadedOn c loaded' := by
  rw [loadedOn, List.filter_append, List.map_append]
  rfl

theorem loadedOn_self (c : CoreId) (roots : List Nat) :
    loadedOn c (roots.map fun root => (c, root)) = roots := by
  have hall : (roots.map fun root => (c, root)).filter (fun load => decide (load.1 = c)) =
      roots.map fun root => (c, root) :=
    List.filter_eq_self.2 fun load hload => by
      obtain ⟨root, -, rfl⟩ := List.mem_map.1 hload
      exact decide_eq_true rfl
  rw [loadedOn, hall, List.map_map]
  exact List.map_id roots

theorem loadedOn_of_ne {c c' : CoreId} (h : c ≠ c') (roots : List Nat) :
    loadedOn c (roots.map fun root => (c', root)) = [] := by
  have hnone : (roots.map fun root => (c', root)).filter (fun load => decide (load.1 = c)) = [] :=
    List.filter_eq_nil_iff.2 fun load hload => by
      obtain ⟨root, -, rfl⟩ := List.mem_map.1 hload
      exact fun he => h (of_decide_eq_true he).symm
  rw [loadedOn, hnone]
  rfl

/-- The switches of every core are wired to its scheduler, if the cores have loaded the given
address spaces. -/
def AllWired (loaded : List (CoreId × Nat)) (k : Kernel) : Prop :=
  ∀ c core, k.core? c = some core → Wired (k.switchesOn c) (loadedOn c loaded) core.scheduler

theorem Apart.allWired (h : Apart k k') (hw : k.AllWired loaded) : k'.AllWired loaded := by
  intro c core' hcore'
  have hget := congrArg (fun l : List Scheduler => l[c]?) h.schedulers
  have hfound : k'.cores[c]? = some core' := hcore'
  simp only [List.getElem?_map, hfound, Option.map_some] at hget
  obtain ⟨core, hcore, hscheduler⟩ := Option.map_eq_some_iff.1 hget.symm
  rw [switchesOn, h.switches, ← hscheduler]
  exact hw c core hcore

theorem Linked.allWired {core core' : Core} {l : List ContextSwitch} (h : Linked k k' core core' l)
    (hw : k.AllWired loaded) : k'.AllWired (loaded ++ k.loadedTo k') := by
  intro c core₁ hcore₁
  rw [switchesOn, h.switches, List.filter_append, loadedOn_append, loadedTo, h.loaded]
  rcases core?_of_set h.found h.cores hcore₁ with ⟨rfl, rfl⟩ | ⟨hc, hcore⟩
  · -- all new switches are on the core that runs
    have hown : l.filter (fun sw => decide (sw.core = k.machine.currentCore)) = l :=
      List.filter_eq_self.2 fun sw hsw => decide_eq_true (h.turned.core_eq hsw)
    rw [hown, loadedOn_self]
    exact (hw _ core h.found).turned h.turned
  · have hnone : l.filter (fun sw => decide (sw.core = c)) = [] :=
      List.filter_eq_nil_iff.2 fun sw hsw =>
        fun he => hc ((of_decide_eq_true he).symm.trans (h.turned.core_eq hsw))
    rw [hnone, List.append_nil, loadedOn_of_ne hc, List.append_nil]
    exact hw c core₁ hcore

/-- Calls under the lock and what goes on between them keep all switches wired. -/
theorem Chained.allWired (h : Chained k loaded k') (hw : k.AllWired []) : k'.AllWired loaded := by
  induction h with
  | refl => exact hw
  | aside _ hapart ih => exact hapart.allWired ih
  | locked _ _ hlinked ih => exact hlinked.allWired ih

/-! ### Runs -/

theorem follows_run (h : k.Ordered []) (operations : List Operation) :
    Follows k (k.run operations) ∧ (k.run operations).Ordered [] := by
  induction operations generalizing k with
  | nil => exact ⟨.refl k, h⟩
  | cons operation rest ih =>
    obtain ⟨hfollows, hresult⟩ := orderly_actionOf operation k [] h
    have hordered : (k.step operation).2.Ordered [] := by
      rw [step]
      cases hr : (k.perform (actionOf operation)).1 <;> rw [hr] at hresult <;> exact hresult
    rw [run]
    split
    · rename_i hstep
      rw [hstep] at hordered
      rw [← step, hstep] at hfollows
      exact ⟨hfollows, hordered⟩
    · rename_i hstep
      rw [hstep] at hordered
      rw [← step, hstep] at hfollows
      obtain ⟨hrest, hordered'⟩ := ih hordered
      exact ⟨hfollows.trans hrest, hordered'⟩

theorem ordered_new {config : Config} {apics : List Nat} (h : Kernel.new config apics = .ok k) :
    k.Ordered [] := by
  obtain ⟨-, hdirectory, hcores⟩ := parts_of_new h
  have hassets : k.assets = [] := by
    rw [assets, hdirectory]
    refine List.append_eq_nil_iff.2 ⟨List.flatMap_eq_nil_iff.2 fun core hin => ?_, rfl⟩
    obtain ⟨c, hc⟩ := List.getElem?_of_mem hin
    obtain ⟨apic, rfl⟩ := hcores c core hc
    rfl
  refine ⟨fun c core hcore => ?_, fun c core hcore => ?_, fun c core hcore => ?_, fun a => ?_,
    fun a ha => ?_⟩
  · obtain ⟨apic, rfl⟩ := hcores c core hcore
    rfl
  · obtain ⟨apic, rfl⟩ := hcores c core hcore
    exact Scheduler.coherent_new _ _
  · obtain ⟨apic, rfl⟩ := hcores c core hcore
    exact .inr ⟨rfl, rfl⟩
  · rw [hassets]
    exact Nat.zero_le 1
  · rw [hassets] at ha
    cases ha

/-- Nothing has been switched on a new kernel, and no task is current. -/
theorem allWired_new {config : Config} {apics : List Nat} (h : Kernel.new config apics = .ok k) :
    k.AllWired [] := by
  obtain ⟨-, -, hcores⟩ := parts_of_new h
  intro c core hcore
  obtain ⟨apic, rfl⟩ := hcores c core hcore
  have hswitches : k.machine.switches = [] := by
    rw [Kernel.new] at h
    split at h
    · cases h
    · cases h
      rfl
  rw [switchesOn, hswitches]
  exact .of_current_eq_none rfl

/-- The context switches of each core form one chain. A run consists of calls under the lock, each
of which makes the switch that the change of the current task of its core calls for, and of what
goes on between them. In the kernel that it leads to and in each one on the way, the switches of
every core lead from the boot context to its current task, and what the core has loaded last, by the
record of the machine, is the address space of this task. -/
theorem context_switches_chain {config : Config} {apics : List Nat}
    (h : Kernel.new config apics = .ok k) (operations : List Operation) :
    (∃ loaded, Chained k loaded (k.run operations)) ∧ (k.run operations).assets.Nodup ∧
      ∀ loaded k', Chained k loaded k' → k'.AllWired loaded := by
  obtain ⟨hfollows, hordered⟩ := follows_run (ordered_new h) operations
  exact ⟨hfollows, hordered.nodup, fun loaded k' hk' => hk'.allWired (allWired_new h)⟩

/-- Two tasks with the same id run and end on the first core, one after the other. The second one
has an address space of its own. -/
def twoExits : List Operation :=
  opening ++ [.turnTo 0, .spawn "first" 0x1000 .other, .tick, .exit,
    .spawnUser "second" 0x400000 none .other, .tick, .exit]

theorem context_switches_chain_twoExits :
    Kernel.new { Config.withCores 2 with mailboxSize := 20 } [0, 1] = .ok pair ∧
      (∃ loaded, Chained pair loaded (pair.run twoExits)) ∧ (pair.run twoExits).assets.Nodup ∧
      (∀ loaded k', Chained pair loaded k' → k'.AllWired loaded) ∧
      (pair.run twoExits).machine.loads = (4, Machine.kernelRoot) := by
  obtain ⟨hchained, hnodup, hwired⟩ := context_switches_chain new_pair twoExits
  exact ⟨new_pair, hchained, hnodup, hwired, by decide +kernel⟩

/-- Both tasks that are over have the id 4, and the last switch saved into the stack of the second
one. -/
example : ((pair.run twoExits).core? 0).map (fun core =>
    (core.scheduler.exited.map Task.id, core.scheduler.exited.getLast?.map (·.stack.top))) =
      some ([4, 4], ((pair.run twoExits).switchesOn 0).getLast?.bind ContextSwitch.saved) := by
  decide +kernel

end Kernel

end Microkernel
