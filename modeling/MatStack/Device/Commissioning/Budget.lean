import MatStack.Device.Commissioning.Confirmation

/-!
# The budget of a window

`BasicCommissioningInfo` advertises how long a commissioning may hold the fail-safe altogether. The
server keeps only the end of the window, and `ArmFailSafe` sets it to the expiry length it is asked
for from now on, however long the window has been open. So the windows of a run keep the budget
exactly when nobody asks for more (`ends_in_budget_iff`). The history a run is watched with is the
instant at which its window was opened.
-/

namespace MatStack

namespace CommissioningServer

open MatStack.Inner

/-- What a commissioning may take altogether, as it is advertised. -/
def budget : Nat := fromSecs failSafeMaxCumulativeSeconds

/-- The end of the window that an event asks for. -/
def asks : ServerEvent → Option Instant
  | .command env cluster command fieldsTlv _ =>
    if cluster = clusterGeneralCommissioning ∧ command = cmdArmFailSafe then
      match decodeArmFailSafe fieldsTlv with
      | .error _ => none
      | .ok (expiryS, _) => if expiryS = 0 then none else some (env.now + fromSecs expiryS)
    else none
  | .expireFailSafe _ => none

/-- A server with the instant at which its window was opened. -/
structure Watched where
  server : Inner
  openedAt : Option Instant

namespace Watched

def new (dev : DevAttestation) : Watched := ⟨.new dev, none⟩

/-- Where the window of an event starts: where it was opened, or there if none is open. -/
def windowStart (w : Watched) (now : Instant) : Instant :=
  if w.server.failSafe.isArmed now then w.openedAt.getD now else now

/-- When the window was opened, after a change. -/
def openedAfter (w : Watched) (now : Instant) : FabricChange → Option Instant
  | .reset (some _) => some now
  | .reset none | .complete => none
  | _ => w.openedAt

/-- One event. -/
def step (c : Crypto) (w : Watched) (e : ServerEvent) : Watched :=
  ⟨CommissioningServer.step c w.server e, w.openedAfter e.env.now (change c w.server e)⟩

/-- Nobody asks for an end that lies past the budget. -/
def WithinBudget (w : Watched) (e : ServerEvent) : Prop :=
  ∀ u, asks e = some u → u ≤ w.windowStart e.env.now + budget

/-- When the budget is spent the window is over: the timer is not armed any more, and the expiry
rolls back what is not complete. What is not complete was installed in a window. -/
structure EndsInBudget (c : Crypto) (w : Watched) : Prop where
  opened : w.server.uncommittedFabricIndex.isSome → w.openedAt.isSome
  ended : ∀ t₀ env, w.openedAt = some t₀ → t₀ + budget ≤ env.now →
    w.server.failSafe.isArmed env.now = false ∧
      (CommissioningServer.step c w.server (.expireFailSafe env)).toFabricTables =
        (FabricChange.reset none).apply w.server.toFabricTables

/-- The timer runs exactly while a window is on record, and what is not complete is in one. -/
structure Consistent (w : Watched) : Prop where
  armed : w.server.failSafe.armedUntil.isSome ↔ w.openedAt.isSome
  uncommitted : w.server.uncommittedFabricIndex.isSome → w.openedAt.isSome

/-- The timer runs out within the budget. -/
def Bounded (w : Watched) : Prop :=
  ∀ t₀ u, w.openedAt = some t₀ → w.server.failSafe.armedUntil = some u → u ≤ t₀ + budget

section
variable {c : Crypto} {w : Watched} {e : ServerEvent} {u : Instant}

theorem isArmed_eq (f : FailSafeState) (now : Instant) :
    f.isArmed now = f.armedUntil.any (now < ·) := by
  rw [FailSafeState.isArmed, FailSafeState.deadline]
  cases f.armedUntil with
  | none => rfl
  | some t =>
    rw [Option.filter_some, Option.any_some]
    by_cases h : now < t
    · rw [if_pos (decide_eq_true h), decide_eq_true h]
      rfl
    · rw [if_neg (by simpa using h), decide_eq_false h]
      rfl

/-- An event that asks for an end extends an open window or opens one. -/
theorem change_of_asks (h : asks e = some u) :
    change c w.server e =
      if w.server.failSafe.isArmed e.env.now then .extend u else .reset (some u) := by
  cases e with
  | expireFailSafe env => cases h
  | command env cluster command fieldsTlv ctx =>
    rw [asks, Option.ite_none_right_eq_some] at h
    obtain ⟨⟨rfl, rfl⟩, h⟩ := h
    rw [change, commandChange, if_pos rfl, if_pos rfl, armChange, ServerEvent.env]
    cases hdecode : decodeArmFailSafe fieldsTlv with
    | error e =>
      rw [hdecode] at h
      cases h
    | ok fields =>
      rw [hdecode] at h
      obtain ⟨hne, h⟩ := Option.ite_none_left_eq_some.1 h
      cases h
      exact if_neg hne

/-- No other event moves the end of the window ahead. -/
theorem asks_of_change (h : change c w.server e = .extend u ∨ change c w.server e = .reset (some u)) :
    asks e = some u := by
  cases e with
  | expireFailSafe env =>
    rw [change, expireChange] at h
    split at h
    · rcases h with h | h <;> cases h
    · rcases h with h | h <;> cases h
  | command env cluster command fieldsTlv ctx =>
    rw [change, commandChange] at h
    by_cases hcmd : cluster = clusterGeneralCommissioning ∧ command = cmdArmFailSafe
    · rw [if_pos hcmd.1, if_pos hcmd.2, armChange] at h
      rw [asks, if_pos hcmd]
      cases hdecode : decodeArmFailSafe fieldsTlv with
      | error e =>
        rw [hdecode] at h
        rcases h with h | h <;> cases h
      | ok fields =>
        rw [hdecode] at h
        dsimp only at h ⊢
        by_cases hne : fields.1 = 0
        · rw [if_pos hne] at h
          rcases h with h | h <;> cases h
        · rw [if_neg hne] at h
          rw [if_neg hne]
          split at h
          · rcases h with h | h <;> cases h
            rfl
          · rcases h with h | h <;> cases h
            rfl
    · exfalso
      unfold labelChange removeChange at h
      split at h
      · next hcluster =>
        rw [if_neg fun hc => hcmd ⟨hcluster, hc⟩] at h
        split at h <;> rcases h with h | h <;> cases h
      · split at h
        · split at h
          · split at h <;> rcases h with h | h <;> cases h
          · split at h
            · split at h <;> rcases h with h | h <;> cases h
            · split at h
              · split at h
                · rcases h with h | h <;> cases h
                · split at h <;> rcases h with h | h <;> cases h
              · rcases h with h | h <;> cases h
        · rcases h with h | h <;> cases h

/-- The rollback leaves the timer. -/
theorem rollback_failSafe (s : FabricTables) (save : SaveResult) :
    (s.rollbackUncommittedFabric save).2.uncommittedFabricIndex = none := by
  rw [FabricTables.rollbackUncommittedFabric]
  cases hu : s.uncommittedFabricIndex with
  | none => exact hu
  | some i => rfl

theorem consistent_new (dev : DevAttestation) : Consistent (new dev) :=
  ⟨Iff.rfl, id⟩

/-- The record follows the timer. -/
theorem Consistent.step (h : Consistent w) : Consistent (w.step c e) := by
  have htables := step_tables c w.server e
  obtain ⟨harmed, huncommitted⟩ := h
  cases hch : change c w.server e with
  | keep =>
    rw [hch] at htables
    refine ⟨?_, ?_⟩ <;> rw [Watched.step, hch, htables] <;> assumption
  | extend t =>
    rw [hch] at htables
    -- only an armed timer is extended
    have hopen : w.openedAt.isSome := by
      have hasks := asks_of_change (w := w) (Or.inl hch)
      have hch' := change_of_asks (c := c) (w := w) hasks
      rw [hch] at hch'
      split at hch'
      · next hon =>
        rw [isArmed_eq] at hon
        refine harmed.1 ?_
        cases hu : w.server.failSafe.armedUntil with
        | none =>
          rw [hu] at hon
          cases hon
        | some t => rfl
      · cases hch'
    refine ⟨?_, ?_⟩ <;> rw [Watched.step, hch, htables]
    · exact iff_of_true rfl hopen
    · exact fun _ => hopen
  | reset t =>
    rw [hch] at htables
    refine ⟨?_, ?_⟩ <;> rw [Watched.step, hch, htables]
    · cases t <;> exact Iff.rfl
    · intro hu
      rw [FabricChange.apply, rollback_failSafe] at hu
      cases hu
  | complete =>
    rw [hch] at htables
    refine ⟨?_, ?_⟩ <;> rw [Watched.step, hch, htables]
    · exact Iff.rfl
    · exact id
  | install entry =>
    rw [hch] at htables
    have hopen : w.openedAt.isSome := by
      have harm := (installs_eq_some (change_eq_install.1 hch)).1
      exact harmed.1 (Option.isSome_iff_ne_none.2 harm)
    refine ⟨?_, ?_⟩ <;> rw [Watched.step, hch, htables]
    · exact harmed
    · exact fun _ => hopen
  | relabel i label =>
    rw [hch] at htables
    refine ⟨?_, ?_⟩ <;> rw [Watched.step, hch, htables] <;> assumption
  | remove i =>
    rw [hch] at htables
    refine ⟨?_, ?_⟩ <;> rw [Watched.step, hch, htables] <;> assumption
  | rows acl keys membership =>
    rw [hch] at htables
    refine ⟨?_, ?_⟩ <;> rw [Watched.step, hch, htables] <;> assumption

/-- Whoever asks for no more keeps the bound. -/
theorem Bounded.step (h : Bounded w) (hg : w.WithinBudget e) :
    Bounded (w.step c e) := by
  have htables := step_tables c w.server e
  intro t₀ u ht₀ hu
  rw [Watched.step] at ht₀ hu
  dsimp only at ht₀ hu
  rw [htables] at hu
  cases hch : change c w.server e with
  | keep | relabel | remove | rows | install =>
    rw [hch] at ht₀ hu
    exact h t₀ u ht₀ hu
  | complete =>
    rw [hch] at ht₀
    cases ht₀
  | extend t =>
    rw [hch] at ht₀ hu
    cases hu
    have hasks := asks_of_change (w := w) (Or.inl hch)
    have hle := hg u hasks
    have hch' := change_of_asks (c := c) (w := w) hasks
    rw [hch] at hch'
    split at hch'
    · next hon =>
      have hopen : w.openedAt = some t₀ := ht₀
      rwa [windowStart, if_pos hon, hopen] at hle
    · cases hch'
  | reset t =>
    rw [hch] at ht₀ hu
    cases t with
    | none => cases ht₀
    | some t =>
      cases ht₀
      cases hu
      have hasks := asks_of_change (w := w) (Or.inr hch)
      have hle := hg u hasks
      have hch' := change_of_asks (c := c) (w := w) hasks
      rw [hch] at hch'
      split at hch'
      · cases hch'
      · next hoff => rwa [windowStart, if_neg hoff] at hle

/-- Within the bound a window ends in the budget. -/
theorem Bounded.ends (h : Bounded w) (hc : Consistent w) : EndsInBudget c w := by
  refine ⟨hc.uncommitted, fun t₀ env ht₀ hnow => ?_⟩
  obtain ⟨u, hu⟩ := Option.isSome_iff_exists.1 (hc.armed.2 (by rw [ht₀]; rfl))
  have hle : u ≤ env.now := Nat.le_trans (h t₀ u ht₀ hu) hnow
  refine ⟨?_, ?_⟩
  · rw [isArmed_eq, hu]
    exact decide_eq_false (Nat.not_lt.2 hle)
  · have hexpired : w.server.failSafe.isExpired env.now = true := by
      rw [FailSafeState.isExpired, hu]
      exact decide_eq_true hle
    rw [step_tables, change, expireChange, if_pos hexpired]

/-- Whoever asks for more gets it: the timer is armed past the budget. -/
theorem not_ends_of_asks (hc : Consistent w) (h : asks e = some u)
    (hlt : w.windowStart e.env.now + budget < u) : ¬EndsInBudget c (w.step c e) := by
  have htables := step_tables c w.server e
  have hch := change_of_asks (c := c) (w := w) h
  have hopened : (w.step c e).openedAt = some (w.windowStart e.env.now) := by
    rw [Watched.step, hch, windowStart]
    split
    · next hon =>
      rw [isArmed_eq] at hon
      obtain ⟨t₀, ht₀⟩ : ∃ t₀, w.openedAt = some t₀ := by
        refine Option.isSome_iff_exists.1 (hc.armed.1 ?_)
        cases hu : w.server.failSafe.armedUntil with
        | none =>
          rw [hu] at hon
          cases hon
        | some t => rfl
      change w.openedAt = some (w.openedAt.getD e.env.now)
      rw [ht₀]
      rfl
    · rfl
  have harmed : (w.step c e).server.failSafe.armedUntil = some u := by
    rw [Watched.step]
    dsimp only
    rw [htables, hch]
    split <;> rfl
  intro hends
  obtain ⟨hoff, -⟩ := hends.ended _ { e.env with now := w.windowStart e.env.now + budget }
    hopened (Nat.le_refl (w.windowStart e.env.now + budget))
  rw [isArmed_eq, harmed, Option.any_some] at hoff
  exact of_decide_eq_false hoff hlt

/-- Along any run the record follows the timer. -/
theorem consistent_run (dev : DevAttestation) (es : List ServerEvent) :
    Consistent (Machine.run (step c) (new dev) es) :=
  Machine.invariant (consistent_new dev) (fun _ _ => Consistent.step) es

end

/-- **The budget of a window.** Over a run from an empty table, every window ends within the
advertised budget, with what is not complete rolled back, exactly when no `ArmFailSafe` of the run
asks for an end that lies past the budget of its window. -/
theorem ends_in_budget_iff (c : Crypto) (dev : DevAttestation) (es : List ServerEvent) :
    (∀ pre post, es = pre ++ post → EndsInBudget c (Machine.run (step c) (new dev) pre)) ↔
      Machine.Along (step c) WithinBudget (new dev) es := by
  constructor
  · intro h
    refine Machine.along_iff.2 fun pre e post hes u hasks => ?_
    have hends := h (pre ++ [e]) post (by rw [hes, List.append_assoc, List.singleton_append])
    rw [Machine.run_append, Machine.run_cons, Machine.run_nil] at hends
    exact Nat.le_of_not_lt fun hlt => not_ends_of_asks (consistent_run dev pre) hasks hlt hends
  · rintro h pre post rfl
    have hbounded : Bounded (Machine.run (step c) (new dev) pre) ∧
        Consistent (Machine.run (step c) (new dev) pre) := by
      refine Machine.run_invariant (I := fun w => Bounded w ∧ Consistent w)
        ⟨nofun, consistent_new dev⟩ ?_ (Machine.along_append.1 h).1
      rintro w e ⟨hb, hc⟩ hg
      exact ⟨hb.step hg, hc.step⟩
    exact hbounded.1.ends hbounded.2

/-! ### A window that is held open -/

section
open SampleChain

/-- `ArmFailSafe` with the advertised length, every 59 seconds. -/
def rearms (n : Nat) : List ServerEvent := (List.range n).map fun k => arm (59000 * (k + 1))

/-- A fabric is installed in a window that is then held open. -/
def held (n : Nat) : List ServerEvent := arm 0 :: commission 0 ++ rearms n

theorem server_run {c : Crypto} (w : Watched) (es : List ServerEvent) :
    (Machine.run (step c) w es).server = Machine.run (CommissioningServer.step c) w.server es := by
  induction es generalizing w with
  | nil => rfl
  | cons e es ih =>
    rw [Machine.run_cons, Machine.run_cons, ih]
    rfl

/-- Only the ends of windows change the record. -/
theorem openedAt_step {c : Crypto} {w : Watched} {e : ServerEvent} (h : ¬(change c w.server e).Ends) :
    (w.step c e).openedAt = w.openedAt := by
  rw [step]
  cases hch : change c w.server e with
  | keep | extend | install | relabel | remove | rows => rfl
  | reset t =>
    rw [hch] at h
    exact absurd trivial h
  | complete =>
    rw [hch] at h
    exact absurd trivial h

theorem openedAt_run {c : Crypto} {w : Watched} {es : List ServerEvent}
    (hes : ∀ e ∈ es, ∀ s, ¬(change c s e).Ends) :
    (Machine.run (step c) w es).openedAt = w.openedAt := by
  induction es generalizing w with
  | nil => rfl
  | cons e es ih =>
    obtain ⟨he, hes⟩ := List.forall_mem_cons.1 hes
    rw [Machine.run_cons, ih hes, openedAt_step (he _)]

/-- `ArmFailSafe` in an open window moves its end and nothing else. -/
theorem step_rearm {w : Watched} {now : Instant} (ha : w.server.failSafe.isArmed now = true) :
    w.step crypto (arm now) =
      ⟨{ w.server with failSafe := .arm now 60 }, w.openedAt⟩ := by
  have hasks : asks (arm now) = some (now + fromSecs 60) := by
    rw [arm, general, asks, if_pos ⟨rfl, rfl⟩, decodeArmFailSafe_sample]
    rfl
  have hch := change_of_asks (c := crypto) (w := w) hasks
  have hserver : CommissioningServer.step crypto w.server (arm now) =
      { w.server with failSafe := .arm now 60 } := by
    change (w.server.handleArmFailSafe (env now) (armFields 60)).2 = _
    rw [handleArmFailSafe, decodeArmFailSafe_sample]
    simp [env, ha]
  have harmed : w.server.failSafe.isArmed (arm now).env.now = true := ha
  rw [if_pos harmed] at hch
  rw [step, hserver, hch]
  rfl

/-- The window stays open for as long as somebody arms it. -/
theorem run_rearms {w : Watched} (hw : w.server.failSafe = .arm 0 60) (n : Nat) :
    Machine.run (step crypto) w (rearms n) =
      ⟨{ w.server with failSafe := .arm (59000 * n) 60 }, w.openedAt⟩ := by
  induction n with
  | zero =>
    change w = ⟨{ w.server with failSafe := .arm 0 60 }, w.openedAt⟩
    rw [← hw]
  | succ n ih =>
    have harmed : (FailSafeState.arm (59000 * n) 60).isArmed (59000 * (n + 1)) = true := by
      have hlt : ∀ m : Nat, 59000 * (m + 1) < 59000 * m + 60000 := fun m => by omega
      rw [isArmed_eq, FailSafeState.arm, Option.any_some, show fromSecs 60 = 60000 from rfl]
      exact decide_eq_true (hlt n)
    rw [rearms, List.range_succ, List.map_append, Machine.run_append]
    change Machine.run (step crypto) (Machine.run (step crypto) w (rearms n)) _ = _
    rw [ih, List.map_cons, List.map_nil, Machine.run_cons, Machine.run_nil]
    exact step_rearm (w := ⟨{ w.server with failSafe := .arm (59000 * n) 60 }, w.openedAt⟩) harmed

theorem run_commission_tables :
    (Machine.run (step crypto) (new dev) (arm 0 :: commission 0)).server.toFabricTables =
      { FabricTables.new with failSafe := .arm 0 60 }.installFabric (entry 1) := by
  rw [server_run]
  exact run_arm_commission (s := .new dev) 0 rfl rfl (by exact (by decide : 0 < 5))

theorem run_commission_openedAt :
    (Machine.run (step crypto) (new dev) (arm 0 :: commission 0)).openedAt = some 0 := by
  rw [Machine.run_cons, openedAt_run fun e he s => not_ends_commission e he, step,
    change_arm (by rfl)]
  rfl

theorem uncommitted_rearmed (s : Inner) (f : FailSafeState) :
    ({ s with failSafe := f } : Inner).uncommittedFabricIndex = s.uncommittedFabricIndex := rfl

/-- The installed fabric is in an open window, and nobody has completed it. -/
theorem run_held (n : Nat) :
    (Machine.run (step crypto) (new dev) (held n)).openedAt = some 0 ∧
      (Machine.run (step crypto) (new dev) (held n)).server.failSafe = .arm (59000 * n) 60 ∧
      (Machine.run (step crypto) (new dev) (held n)).server.uncommittedFabricIndex = some 1 := by
  have htables := run_commission_tables
  have hopened := run_commission_openedAt
  rw [held, Machine.run_append]
  generalize Machine.run (step crypto) (new dev) (arm 0 :: commission 0) = w at htables hopened
  rw [run_rearms (by rw [htables]; rfl)]
  refine ⟨hopened, rfl, (uncommitted_rearmed w.server _).trans ?_⟩
  rw [htables]
  rfl

/-- **Held open.** With the advertised length a client that arms again and again keeps a fabric that
nobody completes past the budget. -/
theorem budget_exceeded :
    (held 16).Pairwise (fun e e' => e.env.now ≤ e'.env.now) ∧
      (Machine.run (step crypto) (new dev) (held 16)).server.failSafe.isArmed 944000 = true ∧
      (Machine.run (step crypto) (new dev) (held 16)).openedAt = some 0 ∧ budget < 944000 ∧
      (Machine.run (step crypto) (new dev) (held 16)).server.uncommittedFabricIndex = some 1 ∧
      ¬EndsInBudget crypto (Machine.run (step crypto) (new dev) (held 16)) := by
  obtain ⟨hopened, harmed, huncommitted⟩ := run_held 16
  have hbudget : budget < 944000 := by decide
  have hon : (Machine.run (step crypto) (new dev) (held 16)).server.failSafe.isArmed 944000 = true := by
    rw [harmed]
    decide
  refine ⟨by decide, hon, hopened, hbudget, huncommitted, fun hends => ?_⟩
  have hoff := (hends.ended 0 (env 944000) hopened (Nat.le_of_lt (by rwa [Nat.zero_add]))).1
  rw [env, hon] at hoff
  cases hoff

end

end Watched

end CommissioningServer

end MatStack
