import Ridm.Relocation.Model
import Mathlib.Data.Fintype.Basic

/-!
# Moves beside each other

`move_tenant` reads the registry before it takes the lock, and goes by what it read.  A move that
waited between the two may find the tenant gone from where it read it to be: it then replaces the
only copy by what the old place holds, nothing, or purges it as a stale one.  `tenant_lost` has
both.

A move that takes the lock while the registry still says what it read (`ReadStands`) does no harm:
`tenant_kept` says that in every schedule of such moves, whatever fails or stops, the database the
registry names holds every row the tenant had at the start.
-/

namespace Ridm.Relocation

/-! ## What the transactions do -/

section

variable {R : Type} {tables : List String}

/-- The copy has the `tenants` row and every row of `init`. -/
structure Full (tables : List String) (init : String → List R) (c : Copy R) : Prop where
  tenantRow : c.tenantRow = true
  rows : ∀ t ∈ tables, ∀ r ∈ init t, r ∈ c.rows t

lemma copyTables_rows {src : Copy R} (ts : List String) :
    ∀ {dst c : Copy R} {counts counts' : List (String × ℕ)},
      copyTables src ts dst counts = .ok (c, counts') →
      c.tenantRow = dst.tenantRow ∧ (∀ t, t ∉ ts → c.rows t = dst.rows t) ∧
        ∀ t ∈ ts, ∀ r ∈ src.rows t, r ∈ c.rows t := by
  induction ts with
  | nil =>
      intro dst c counts counts' h
      simp only [copyTables, Except.ok.injEq, Prod.mk.injEq] at h
      rw [← h.1]
      simp
  | cons t ts ih =>
      intro dst c counts counts' h
      simp only [copyTables] at h
      split_ifs at h with hcount
      obtain ⟨hrow, hother, hcopied⟩ := ih h
      refine ⟨hrow, ?_, ?_⟩
      · intro t' ht'
        rw [List.mem_cons, not_or] at ht'
        simp [hother t' ht'.2, ht'.1]
      · intro t' ht' r hr
        by_cases hts : t' ∈ ts
        · exact hcopied t' hts r hr
        · have htt : t' = t := (List.mem_cons.mp ht').resolve_right hts
          subst htt
          simp [hother t' hts, hr]

/-- **The copy of a full copy is full.** -/
lemma copyEverything_full {init : String → List R} {target : String} {src dst c : Copy R}
    {counts : List (String × ℕ)} (h : copyEverything tables target src dst = .ok (c, counts))
    (hhome : target = HOME_REGION → dst.tenantRow = true) (hsrc : Full tables init src) :
    Full tables init c := by
  obtain ⟨hrow, -, hcopied⟩ := copyTables_rows tables h
  refine ⟨?_, fun t ht r hr => hcopied t ht r (hsrc.rows t ht r hr)⟩
  rw [hrow]
  split_ifs with htarget
  · simp [deleteRows, htarget, hhome htarget]
  · rfl

lemma purge_home (c : Copy R) : (purge tables HOME_REGION c).tenantRow = c.tenantRow := by
  simp [purge, deleteRows]

end

/-! ## The invariant -/

section

variable {ι R : Type} {tables : List String}

/-- The registry's entry as the move read it, when the lock is its next step. -/
def Pc.readEntry : Pc → Option Tenant
  | .read _ tenant => some tenant
  | _ => none

/-- **What was read stands.**  Whenever a move takes the lock, the registry still names the
database it named when the move read it. -/
def ReadStands (w : Pool ι (World ι R) Pc) : Pick ι Choice (String × R) → Prop
  | .call i .go => ((w.calls i).readEntry.all fun tenant => w.shared.lock.isSome ||
      decide (tenant.dataRegion = w.shared.registry.dataRegion)) = true
  | _ => True

instance (w : Pool ι (World ι R) Pc) : ∀ a, Decidable (ReadStands w a)
  | .call _ .go => inferInstanceAs (Decidable (_ = true))
  | .call _ (.fail _) | .call _ .stop | .env _ => .isTrue trivial

/-- The database the registry names holds everything. -/
def Kept (tables : List String) (init : String → List R) (g : World ι R) : Prop :=
  Full tables init (g.db g.registry.database)

/-- What holds of each move: inside it has the lock, and knows where the tenant lives. -/
def CallOk (tables : List String) (init : String → List R) (g : World ι R) (i : ι) : Pc → Prop
  | .clearing target others => g.lock = some i ∧ g.registry.database = target ∧ target ∉ others
  | .cleaning target todo _ => g.lock = some i ∧ g.registry.database = target ∧ target ∉ todo
  | .cleaningOne target d todo _ =>
      g.lock = some i ∧ g.registry.database = target ∧ target ≠ d ∧ target ∉ todo
  | .checking source target | .marking source target | .copying source target
  | .undoing source target _ =>
      g.lock = some i ∧ g.registry.database = source ∧ source ≠ target
  | .verifying source target _ | .placing source target _ =>
      g.lock = some i ∧ g.registry.database = source ∧ source ≠ target ∧
        Full tables init (g.db target)
  | .purging source target _ =>
      g.lock = some i ∧ g.registry.database = target ∧ source ≠ target
  | .unmarking _ | .leaving _ => g.lock = some i
  | _ => True

/-- **The invariant.** -/
structure Inv (tables : List String) (init : String → List R) (w : Pool ι (World ι R) Pc) :
    Prop where
  home : (w.shared.db HOME_REGION).tenantRow = true
  kept : Kept tables init w.shared
  calls : ∀ i, CallOk tables init w.shared i (w.calls i)

variable {init : String → List R} {g g' : World ι R} {i j : ι} {l l' : Pc}

lemma CallOk.lock (h : CallOk tables init g i l) (hl : l.isInside = true) : g.lock = some i := by
  cases l with
  | idle m => cases hl
  | read m tenant => cases hl
  | returned outcome => cases hl
  | stopped => cases hl
  | unmarking e => exact h
  | leaving outcome => exact h
  | _ => exact h.1

lemma callOk_outside (hl : l.isInside = false) : CallOk tables init g i l := by
  cases l with
  | idle m => trivial
  | read m tenant => trivial
  | returned outcome => trivial
  | stopped => trivial
  | _ => cases hl

lemma CallOk.other (h : CallOk tables init g j l) (hji : j ≠ i)
    (hlock : g.lock = none ∨ g.lock = some i) : CallOk tables init g' j l := by
  refine callOk_outside ?_
  by_contra hin
  have hheld := h.lock (by simpa using hin)
  rw [hheld] at hlock
  rcases hlock with hnone | hsome
  · cases hnone
  · exact hji (Option.some.inj hsome)

/-! ## One step -/

lemma Kept.setDb {d : String} {c : Copy R} (h : Kept tables init g)
    (hd : g.registry.database ≠ d) : Kept tables init (g.setDb d c) := by
  simpa [Kept, World.setDb, hd] using h

lemma home_setDb {d : String} {c : Copy R} (h : (g.db HOME_REGION).tenantRow = true)
    (hc : d = HOME_REGION → c.tenantRow = true) :
    ((g.setDb d c).db HOME_REGION).tenantRow = true := by
  by_cases hd : d = HOME_REGION
  · simp [World.setDb, hd, hc hd]
  · simpa [World.setDb, Ne.symm hd] using h

lemma home_purge {d : String} (h : (g.db HOME_REGION).tenantRow = true) (hd : d = HOME_REGION) :
    (purge tables d (g.db d)).tenantRow = true := by
  rw [hd, purge_home, h]

lemma database_regionOf (t : Tenant) (name : String) (relocating : Bool) :
    Tenant.database { t with dataRegion := regionOf name, relocating := relocating } = name := by
  by_cases h : name = HOME_REGION
  · simp [Tenant.database, regionOf, h]
  · simp [Tenant.database, regionOf, h]

lemma isInside_readRegistry (m : Move) : (readRegistry g m).isInside = false := by
  simp only [readRegistry]
  split
  · rfl
  · split_ifs
    · rfl
    · split <;> rfl

lemma callOk_enter {m : Move} {tenant : Tenant}
    (hread : tenant.dataRegion = g.registry.dataRegion) (hlock : g.lock = some i) :
    CallOk tables init g i (enter m tenant) := by
  have hdb : g.registry.database = tenant.database := by simp [Tenant.database, hread]
  simp only [enter]
  split_ifs with hthere hmarked
  · exact ⟨hlock, hdb.trans hthere, by simp⟩
  · exact ⟨hlock, hdb.trans hthere, by simp⟩
  · exact ⟨hlock, hdb, hthere⟩

/-- **One step inside** keeps the tenant, and what the move knows. -/
lemma go_inside (hin : l.isInside = true) (h : CallOk tables init g i l)
    (hhome : (g.db HOME_REGION).tenantRow = true) (hkept : Kept tables init g)
    (hstep : go tables i g l = some (g', l')) :
    (g'.db HOME_REGION).tenantRow = true ∧ Kept tables init g' ∧ CallOk tables init g' i l' := by
  cases l with
  | clearing target others =>
      cases hstep
      exact ⟨hhome, hkept, h⟩
  | cleaning target todo cleaned =>
      obtain ⟨hlock, hdb, hnot⟩ := h
      cases todo with
      | nil =>
          cases hstep
          exact ⟨hhome, hkept, hlock⟩
      | cons d todo =>
          rw [List.mem_cons, not_or] at hnot
          simp only [go] at hstep
          split_ifs at hstep
          · cases hstep
            exact ⟨hhome, hkept, hlock, hdb, hnot.1, hnot.2⟩
          · cases hstep
            exact ⟨hhome, hkept, hlock, hdb, hnot.2⟩
  | cleaningOne target d todo cleaned =>
      obtain ⟨hlock, hdb, hne, hnot⟩ := h
      cases hstep
      exact ⟨home_setDb hhome (home_purge hhome), hkept.setDb (hdb ▸ hne), hlock, hdb, hnot⟩
  | checking source target =>
      cases hstep
      exact ⟨hhome, hkept, h⟩
  | marking source target =>
      cases hstep
      exact ⟨hhome, hkept, h⟩
  | copying source target =>
      obtain ⟨hlock, hdb, hne⟩ := h
      simp only [go] at hstep
      split at hstep
      · rename_i c counts hcopy
        cases hstep
        have htarget : target = HOME_REGION → (g.db target).tenantRow = true := by
          rintro rfl
          exact hhome
        have hfull : Full tables init c :=
          copyEverything_full hcopy htarget (by simpa [Kept, hdb] using hkept)
        refine ⟨home_setDb hhome fun _ => hfull.tenantRow, hkept.setDb (hdb ▸ hne), hlock, hdb, hne,
          ?_⟩
        simpa [World.setDb] using hfull
      · cases hstep
        exact ⟨hhome, hkept, hlock, hdb, hne⟩
  | verifying source target rows =>
      cases hstep
      exact ⟨hhome, hkept, h⟩
  | undoing source target e =>
      obtain ⟨hlock, hdb, hne⟩ := h
      cases hstep
      exact ⟨home_setDb hhome (home_purge hhome), hkept.setDb (hdb ▸ hne), hlock⟩
  | unmarking e =>
      cases hstep
      exact ⟨hhome, hkept, h⟩
  | placing source target rows =>
      obtain ⟨hlock, -, hne, hfull⟩ := h
      cases hstep
      refine ⟨hhome, ?_, hlock, database_regionOf _ _ _, hne⟩
      simpa [Kept, database_regionOf] using hfull
  | purging source target rows =>
      obtain ⟨hlock, hdb, hne⟩ := h
      cases hstep
      exact ⟨home_setDb hhome (home_purge hhome), hkept.setDb (hdb ▸ hne.symm), hlock⟩
  | leaving outcome =>
      cases hstep
      exact ⟨hhome, hkept, trivial⟩
  | _ => cases hin

lemma callOk_fails {e : AppError} (h : CallOk tables init g i l) (hstep : fails e l = some l') :
    CallOk tables init g i l' := by
  cases l with
  | verifying source target rows =>
      cases hstep
      exact ⟨h.1, h.2.1, h.2.2.1⟩
  | copying source target => cases hstep; exact h
  | undoing source target e' => cases hstep; exact h.1
  | unmarking e' => cases hstep; exact h
  | leaving outcome => cases hstep
  | returned outcome => cases hstep
  | stopped => cases hstep
  | idle m => cases hstep; trivial
  | read m tenant => cases hstep; trivial
  | _ => cases hstep; exact h.1

lemma env_ok {e : String × R} (hhome : (g.db HOME_REGION).tenantRow = true)
    (hkept : Kept tables init g) (hstep : env g e = some g') :
    (g'.db HOME_REGION).tenantRow = true ∧ Kept tables init g' ∧
      ∀ i l, CallOk tables init g i l → CallOk tables init g' i l := by
  obtain ⟨t, r⟩ := e
  simp only [env] at hstep
  split_ifs at hstep
  cases hstep
  refine ⟨?_, ⟨?_, ?_⟩, ?_⟩
  · refine home_setDb hhome fun hd => ?_
    rw [hd]
    exact hhome
  · simpa [World.setDb] using hkept.tenantRow
  · intro t' ht' r' hr'
    have hold := hkept.rows t' ht' r' hr'
    by_cases htt : t' = t
    · subst htt
      simp [World.setDb, hold]
    · simpa [World.setDb, htt] using hold
  · intro i l h
    cases l with
    | verifying source target rows =>
        obtain ⟨hlock, hdb, hne, hfull⟩ := h
        refine ⟨hlock, hdb, hne, ?_⟩
        rw [← hdb] at hne
        simpa [World.setDb, hne.symm] using hfull
    | placing source target rows =>
        obtain ⟨hlock, hdb, hne, hfull⟩ := h
        refine ⟨hlock, hdb, hne, ?_⟩
        rw [← hdb] at hne
        simpa [World.setDb, hne.symm] using hfull
    | _ => exact h

variable [DecidableEq ι] {w w' : Pool ι (World ι R) Pc} {as : List (Pick ι Choice (String × R))}

/-- **One step of a move** keeps the invariant. -/
lemma Inv.step {k : Choice} (h : Inv tables init w) (hC : ReadStands w (.call i k))
    (hstep : act tables i w.shared (w.calls i) k = some (g', l')) :
    Inv tables init (w.next i g' l') := by
  suffices hgoal : (g'.db HOME_REGION).tenantRow = true ∧ Kept tables init g' ∧
      CallOk tables init g' i l' ∧ ∀ j, j ≠ i → CallOk tables init g' j (w.calls j) by
    obtain ⟨hhome, hkept, hmine, hothers⟩ := hgoal
    exact ⟨hhome, hkept, Pool.next_forall (p := CallOk tables init g') hmine hothers⟩
  have hmine := h.calls i
  by_cases hin : (w.calls i).isInside = true
  · -- the others are outside, whatever this step does
    have hlock := hmine.lock hin
    have hothers : ∀ j, j ≠ i → CallOk tables init g' j (w.calls j) :=
      fun j hji => (h.calls j).other hji (Or.inr hlock)
    cases k with
    | go =>
        obtain ⟨hhome, hkept, hmine'⟩ := go_inside hin hmine h.home h.kept hstep
        exact ⟨hhome, hkept, hmine', hothers⟩
    | fail e =>
        simp only [act, Option.map_eq_some_iff, Prod.mk.injEq] at hstep
        obtain ⟨l₀, hfails, rfl, rfl⟩ := hstep
        exact ⟨h.home, h.kept, callOk_fails hmine hfails, hothers⟩
    | stop =>
        simp only [act] at hstep
        split at hstep
        · cases hstep
        · cases hstep
        · cases hstep
          rw [if_pos hin]
          exact ⟨h.home, h.kept, trivial, fun j hji => (h.calls j).other hji (Or.inr hlock)⟩
  · have hstay : ∀ l : Pc, l.isInside = false → (w.shared.db HOME_REGION).tenantRow = true ∧
        Kept tables init w.shared ∧ CallOk tables init w.shared i l ∧
        ∀ j, j ≠ i → CallOk tables init w.shared j (w.calls j) :=
      fun l hl => ⟨h.home, h.kept, callOk_outside hl, fun j _ => h.calls j⟩
    cases hl : w.calls i with
    | idle m =>
        rw [hl] at hstep
        cases k with
        | go =>
            cases hstep
            exact hstay _ (isInside_readRegistry m)
        | fail e => cases hstep; exact hstay _ rfl
        | stop => cases hstep; exact hstay _ rfl
    | read m tenant =>
        rw [hl] at hstep
        cases k with
        | go =>
            simp only [act, go] at hstep
            split_ifs at hstep with hlocked
            · cases hstep
              exact hstay _ rfl
            · cases hstep
              have hfree : w.shared.lock = none := by simpa using hlocked
              have hread : tenant.dataRegion = w.shared.registry.dataRegion := by
                simpa [ReadStands, hl, Pc.readEntry, hfree] using hC
              exact ⟨h.home, h.kept, callOk_enter hread rfl,
                fun j hji => (h.calls j).other hji (Or.inl hfree)⟩
        | fail e => cases hstep; exact hstay _ rfl
        | stop => cases hstep; exact hstay _ rfl
    | returned outcome => rw [hl] at hstep; cases k <;> cases hstep
    | stopped => rw [hl] at hstep; cases k <;> cases hstep
    | _ => simp [hl, Pc.isInside] at hin

/-! ## The tenant is kept -/

/-- The move has not begun. -/
def Pc.isIdle : Pc → Bool
  | .idle _ => true
  | _ => false

/-- The rows the tenant has where the registry says it lives. -/
def World.tenantRows (g : World ι R) : String → List R := (g.db g.registry.database).rows

/-- **Moving a tenant never loses it** in every schedule in which what a move read still stands when
it takes the lock: at every moment, whatever failed or stopped, the database the registry names
holds every row the tenant had at the start. -/
theorem tenant_kept (hidle : ∀ i, (w.calls i).isIdle = true)
    (hhome : (w.shared.db HOME_REGION).tenantRow = true)
    (hrow : (w.shared.db w.shared.registry.database).tenantRow = true)
    (hmeets : (moves tables ι R).machine.Meets ReadStands w as)
    (hrun : (moves tables ι R).machine.run w as = some w') :
    Kept tables w.shared.tenantRows w'.shared := by
  refine (Calls.run_inv (I := Inv tables w.shared.tenantRows) Inv.step ?_ hmeets hrun ?_).kept
  · intro w e g' h _ hstep
    obtain ⟨hhome, hkept, hcalls⟩ := env_ok h.home h.kept hstep
    exact ⟨hhome, hkept, fun i => hcalls i _ (h.calls i)⟩
  · refine ⟨hhome, ⟨hrow, fun t _ r hr => hr⟩, fun i => ?_⟩
    have hi := hidle i
    cases hl : w.calls i <;> simp_all [Pc.isIdle, CallOk]

end

/-! ## The schedules that lose a tenant -/

def moveRace : Pool (Fin 3) (World (Fin 3) String) Pc where
  shared :=
    { registry := ⟨false, none, false⟩
      lock := none
      db := fun name =>
        if name = HOME_REGION then ⟨true, fun t => if t = "users" then ["alice"] else []⟩
        else ⟨false, fun _ => []⟩ }
  calls
    | 2 => .idle ⟨[HOME_REGION, "eu"], none⟩
    | _ => .idle ⟨[HOME_REGION, "eu"], some "eu"⟩

def steps (i : Fin 3) (n : ℕ) : List (Pick (Fin 3) Choice (String × String)) :=
  List.replicate n (.call i .go)

/-- **A tenant lost, twice over.**  Move 1 reads that the tenant is at home; move 0 takes it to
`eu`, from start to end; move 1 gets the lock and replaces what `eu` holds by a copy of what is at
home, nothing.  Move 2 reads that the tenant is at home, where it should go; move 0 takes it to
`eu`; move 2 gets the lock and removes the "stale" copy in `eu`. -/
theorem tenant_lost :
    (∀ i, (moveRace.calls i).isIdle = true) ∧
    (moveRace.shared.db HOME_REGION).tenantRow = true ∧
    moveRace.shared.tenantRows "users" = ["alice"] ∧
    (∃ w, (moves ["users"] (Fin 3) String).machine.run moveRace
        (steps 1 1 ++ steps 0 9 ++ steps 1 4) = some w ∧
      ¬ Kept ["users"] moveRace.shared.tenantRows w.shared) ∧
    ∃ w, (moves ["users"] (Fin 3) String).machine.run moveRace
        (steps 2 1 ++ steps 0 9 ++ steps 2 3) = some w ∧
      ¬ Kept ["users"] moveRace.shared.tenantRows w.shared := by
  refine ⟨by decide, rfl, rfl, ⟨_, rfl, fun h => ?_⟩, ⟨_, rfl, fun h => ?_⟩⟩
  · exact absurd (h.rows "users" (.head _) "alice" (.head _)) (by decide)
  · exact absurd (h.rows "users" (.head _) "alice" (.head _)) (by decide)

def inTurn : List (Pick (Fin 3) Choice (String × String)) :=
  steps 1 5 ++ [.call 1 (.fail .database)] ++ steps 1 3 ++ steps 0 7 ++ [.call 0 .stop] ++
    steps 2 9

/-- In turn, nothing is lost. -/
theorem tenant_kept_inTurn :
    ∃ w, (moves ["users"] (Fin 3) String).machine.run moveRace inTurn = some w ∧
      w.shared.registry.dataRegion = none ∧
      Kept ["users"] moveRace.shared.tenantRows w.shared := by
  refine ⟨_, rfl, rfl, ?_⟩
  have hmeets : (moves ["users"] (Fin 3) String).machine.Meets ReadStands moveRace inTurn := by
    decide
  exact tenant_kept (by decide) rfl rfl hmeets rfl

end Ridm.Relocation
