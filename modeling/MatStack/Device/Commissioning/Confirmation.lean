import MatStack.Device.Commissioning.SampleChain

/-!
# Confirmation of a fabric

A fabric that `AddNOC` installs is marked until its commissioning is complete, and the end of the
window removes what is marked. `CommissioningComplete` takes the mark away without a look at the
timer, so a late one decides together with the expiry, whichever comes first, what becomes of the
fabric; and a second `AddNOC` takes the mark from the fabric of the first. Along runs that do
neither, a fabric becomes permanent only through a `CommissioningComplete` in its own window.
-/

namespace MatStack

def ServerEvent.env : ServerEvent → Env
  | .command env .. => env
  | .expireFailSafe env => env

namespace CommissioningServer

open MatStack.Inner

section
variable (c : Crypto) (s : Inner)

/-- A step that installs a fabric gives it an index of its own and takes no mark from another, and
a step that completes a commissioning does so in an open window or has nothing to complete. -/
structure Timely (e : ServerEvent) : Prop where
  fresh : (change c s e).Fresh s.toFabricTables
  alone : (change c s e).Alone s.toFabricTables
  inTime : change c s e = .complete → s.HasUncommitted → s.failSafe.isArmed e.env.now = true

/-- The events complete a commissioning in the window they start in, before its end. -/
def CompletesInTime (es : List ServerEvent) : Prop :=
  ∃ pre e post, es = pre ++ e :: post ∧
    Machine.Along (step c) (fun s e => ¬(change c s e).Ends) s pre ∧
    change c (Machine.run (step c) s pre) e = .complete ∧
    (Machine.run (step c) s pre).failSafe.isArmed e.env.now = true

/-- A fabric stays installed over the events. -/
def Stays (i : UInt8) (es : List ServerEvent) : Prop :=
  Machine.Along (step c) (fun s e => i ∈ (step c s e).store.indices) s es

end

section
variable {c : Crypto} {s : Inner} {e : ServerEvent} {es fs : List ServerEvent} {i : UInt8}
  {entry : FabricEntry}

theorem nodup_step (h : s.store.indices.Nodup) (ht : Timely c s e) :
    (step c s e).store.indices.Nodup := by
  rw [step_tables]
  exact FabricChange.apply_nodup h ht.fresh

/-- A marked fabric that becomes permanent was completed in time. -/
theorem completesInTime_of_marked (hn : s.store.indices.Nodup)
    (hm : s.uncommittedFabricIndex = some i) (hi : i ∈ s.store.indices)
    (ht : Machine.Along (step c) (Timely c) s fs) (hs : Stays c s i fs)
    (hp : (Machine.run (step c) s fs).Permanent i) : CompletesInTime c s fs := by
  induction fs generalizing s with
  | nil => exact absurd hm hp.2
  | cons e fs ih =>
    by_cases hc : change c s e = .complete
    · exact ⟨[], e, fs, rfl, trivial, hc, ht.1.inTime hc ⟨i, hi, hm⟩⟩
    have hi' : i ∈ (step c s e).store.indices := hs.1
    have hkept : (step c s e).uncommittedFabricIndex = some i ∧ ¬(change c s e).Ends := by
      rw [step_tables] at hi' ⊢
      exact FabricChange.apply_uncommitted hn ht.1.alone hm hi hc hi'
    obtain ⟨pre, e', post, rfl, hpre, hc', harm⟩ :=
      ih (nodup_step hn ht.1) hkept.1 hi' ht.2 hs.2 hp
    exact ⟨e :: pre, e', post, rfl, ⟨hkept.2, hpre⟩, hc', harm⟩

/-- **Confirmation.** A fabric that is installed along a run of timely steps, and stays, becomes
permanent only through a `CommissioningComplete` before the end of the window it was added in. -/
theorem permanent_only_in_time (dev : DevAttestation)
    (ht : Machine.Along (step c) (Timely c) (.new dev) (es ++ e :: fs))
    (hi : installs c (Machine.run (step c) (.new dev) es) e = some entry)
    (hs : Stays c (Machine.run (step c) (.new dev) (es ++ [e])) entry.fabricIndex fs)
    (hp : (Machine.run (step c) (.new dev) (es ++ e :: fs)).Permanent entry.fabricIndex) :
    CompletesInTime c (Machine.run (step c) (.new dev) (es ++ [e])) fs := by
  rw [Machine.along_append, Machine.along_cons] at ht
  obtain ⟨htes, hte, htfs⟩ := ht
  have hn : (Machine.run (step c) (.new dev) es).store.indices.Nodup :=
    Machine.run_invariant (I := fun s : Inner => s.store.indices.Nodup) List.nodup_nil
      (fun s e h ht => nodup_step h ht) htes
  rw [Machine.run_append, Machine.run_cons] at hp
  rw [Machine.run_append, Machine.run_cons, Machine.run_nil] at hs ⊢
  generalize Machine.run (step c) (.new dev) es = s at *
  have hstep : (step c s e).toFabricTables = s.installFabric entry := by
    rw [step_tables, change_eq_install.2 hi]
    rfl
  refine completesInTime_of_marked (nodup_step hn hte) ?_ ?_ htfs hs hp
  · rw [hstep]
    rfl
  · rw [hstep]
    exact List.mem_map_of_mem (List.mem_append_right _ (List.mem_singleton_self _))

/-- On an empty table every step is timely. -/
theorem timely_of_empty (h : s.store.indices = []) : Timely c s e where
  fresh _ _ := by
    rw [h]
    exact List.not_mem_nil
  alone _ _ := fun ⟨_, hi, _⟩ => by
    rw [h] at hi
    exact List.not_mem_nil hi
  inTime _ := fun ⟨_, hi, _⟩ => by
    rw [h] at hi
    exact absurd hi List.not_mem_nil

/-- Commands that install nothing are timely on an empty table, and leave it empty. -/
theorem along_timely_of_empty (h : s.store.indices = [])
    (hes : ∀ e ∈ es, ∀ s, installs c s e = none) :
    Machine.Along (step c) (Timely c) s es ∧ (Machine.run (step c) s es).store.indices = [] := by
  induction es generalizing s with
  | nil => exact ⟨trivial, h⟩
  | cons e es ih =>
    have hne : ∀ entry, change c s e ≠ .install entry := fun entry h' => by
      rw [change_eq_install, hes e List.mem_cons_self] at h'
      cases h'
    have hsub := FabricChange.apply_indices_sublist (s := s.toFabricTables) _ hne
    rw [← step_tables, h] at hsub
    obtain ⟨hal, hrun⟩ := ih (List.sublist_nil.1 hsub) fun e he => hes e (List.mem_cons_of_mem _ he)
    exact ⟨⟨timely_of_empty h, hal⟩, hrun⟩

end

/-! ### One fabric, completed in time and too late -/

section
open SampleChain

/-- The window is open and a fabric prepared. -/
def prepared : Inner := Machine.run (step crypto) (.new dev) (arm 0 :: stages 0)

theorem prepared_eq :
    prepared = { Inner.new dev with failSafe := .arm 0 60, pending := staged } := by
  rw [prepared, Machine.run_cons, step_arm (s := .new dev) rfl rfl, run_stages]
  rfl

theorem installs_prepared : installs crypto prepared (addNoc 0) = some (entry 1) := by
  rw [prepared_eq]
  exact installs_addNoc (by rfl) (by exact (by decide : 0 < 5)) rfl

/-- The fabric is installed. -/
def installed : Inner := step crypto prepared (addNoc 0)

theorem installed_tables : installed.toFabricTables =
    { FabricTables.new with failSafe := .arm 0 60 }.installFabric (entry 1) := by
  rw [installed, step_tables, change_eq_install.2 installs_prepared, prepared_eq]
  rfl

theorem run_installed : Machine.run (step crypto) (.new dev) ((arm 0 :: stages 0) ++ [addNoc 0]) =
    installed := by
  rw [Machine.run_append, Machine.run_cons, Machine.run_nil, installed, prepared]

/-- What a completion leaves, in time or not. -/
theorem complete_tables (now : Instant) :
    (step crypto installed (complete now)).toFabricTables = FabricChange.complete.apply
      ({ FabricTables.new with failSafe := .arm 0 60 }.installFabric (entry 1)) := by
  rw [step_complete_tables, installed_tables]

theorem complete_permanent (now : Instant) :
    (step crypto installed (complete now)).Permanent 1 := by
  rw [complete_tables]
  exact ⟨List.mem_singleton_self _, nofun⟩

/-- The fabric is completed after one second. -/
theorem permanent_only_in_time_sample :
    CompletesInTime crypto installed [complete (fromSecs 1)] := by
  obtain ⟨hes, hempty⟩ :=
    along_timely_of_empty (s := .new dev) rfl fun e he s => installs_prepare e he
  have hcomplete : Timely crypto installed (complete (fromSecs 1)) := by
    refine ⟨nofun, nofun, fun _ _ => ?_⟩
    rw [installed_tables]
    rfl
  have hperm := complete_permanent (fromSecs 1)
  rw [← run_installed] at hcomplete hperm ⊢
  refine permanent_only_in_time dev
    (Machine.along_append.2 ⟨hes, timely_of_empty hempty, ?_, trivial⟩) installs_prepared
    ⟨hperm.1, trivial⟩ ?_
  · rwa [Machine.run_append, Machine.run_cons, Machine.run_nil] at hcomplete
  · rw [Machine.run_append, Machine.run_cons, Machine.run_nil] at hperm
    rwa [Machine.run_append, Machine.run_cons, Machine.run_cons, Machine.run_nil]

/-- The completion comes at the end of the window, before the expiry is noticed. -/
def late : List ServerEvent := [complete (fromSecs 60), .expireFailSafe (env (fromSecs 60))]

/-- **A late completion.** It makes the fabric permanent. -/
theorem late_complete_permanent :
    installs crypto prepared (addNoc 0) = some (entry 1) ∧ Stays crypto installed 1 late ∧
      (Machine.run (step crypto) installed late).Permanent 1 ∧
      ¬CompletesInTime crypto installed late := by
  have hperm := complete_permanent (fromSecs 60)
  have hexpire : (step crypto (step crypto installed (complete (fromSecs 60)))
      (.expireFailSafe (env (fromSecs 60)))).Permanent 1 := by
    have htables := complete_tables (fromSecs 60)
    rw [step_tables, change, expireChange, htables]
    rwa [htables] at hperm
  refine ⟨installs_prepared, ⟨hperm.1, hexpire.1, trivial⟩, hexpire, ?_⟩
  rintro ⟨pre, e, post, hfs, hpre, -, harm⟩
  cases pre with
  | nil =>
    obtain rfl : complete (fromSecs 60) = e := (List.cons.inj hfs).1
    rw [Machine.run_nil, installed_tables] at harm
    exact absurd harm (by decide)
  | cons e' _ =>
    obtain rfl : complete (fromSecs 60) = e' := (List.cons.inj hfs).1
    exact hpre.1 trivial

end

end CommissioningServer

end MatStack
