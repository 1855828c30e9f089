import QueryGateway.Proofs.Settings.Acceptance

/-!
# Selection

Whom a context stands for and where its statements run, read off the settings. A context names the
tenant of the configured context of its key (`Settings.Selects`), and the tenant runs at the
connection string under its own key, if that is not blank (`Settings.Connects`). On settings that
have been read, these are what the registry finds.
-/

namespace QueryGateway

open Text

namespace Settings

variable {s : Settings}

/-- **Whom a context stands for:** the tenant of the configured context of its key, or no one. -/
def Selects (s : Settings) (context : Option String) : Option Tenant → Prop
  | some t => ∃ name, context = some name ∧
      ∃ c ∈ s.contexts, contextKey c.1 = contextKey name ∧ t = .ofContext c.1 c.2
  | none => ∀ name, context = some name → ∀ c ∈ s.contexts, contextKey c.1 ≠ contextKey name

/-- **The connection string of a tenant:** one that is not blank, under a key that is not empty. -/
def Connects (s : Settings) (t : Tenant) (connection : String) : Prop :=
  t.connectionStringKey ≠ "" ∧ (t.connectionStringKey, connection) ∈ s.connectionStrings ∧
    isAllBlank connection = false

/-- A name leads to the context of its key, since the keys of valid settings are not blank. -/
theorem IsValid.find?_eq_some_iff (h : s.IsValid) {name : String} {t : Tenant} :
    (TenantRegistry.ofSettings s).find? name = some t ↔
      ∃ c ∈ s.contexts, contextKey c.1 = contextKey name ∧ t = .ofContext c.1 c.2 := by
  rw [TenantRegistry.find?_ofSettings_eq_some_iff h.keys]
  refine and_iff_right_of_imp ?_
  rintro ⟨c, hc, hkey, -⟩
  rw [← isAllBlank_contextKey, ← hkey, isAllBlank_contextKey]
  exact h.names c hc

/-- **What a tenant connects to** is what the registry gives for it. The key of no connection string
is empty for a tenant that has one, and of each key there is one. -/
theorem IsAccepted.connects_iff (h : s.IsAccepted) {t : Tenant} {connection : String} :
    s.Connects t connection ↔
      (TenantRegistry.ofSettings s).connectionString t = .ok connection := by
  constructor
  · -- the key is looked up, and what is found is not blank
    rintro ⟨hkey, hmem, hblank⟩
    have hfind := (Keyed.find?_eq_some_iff h.connectionStrings_nodup).2 ⟨hmem, rfl⟩
    have hkey' : t.connectionStringKey.isEmpty = false := by
      rwa [← Bool.not_eq_true, String.isEmpty_iff]
    have hfind' : (TenantRegistry.ofSettings s).connectionStrings.find?
        (·.1 = t.connectionStringKey) = some (t.connectionStringKey, connection) := hfind
    rw [TenantRegistry.connectionString, hkey', hfind']
    simp only [hblank, Bool.false_eq_true, if_false]
  · -- a tenant without a key is refused first
    intro hconnection
    refine ⟨fun hkey => ?_, h.connectionString_eq_ok hconnection⟩
    rw [TenantRegistry.connectionString, if_pos (by rw [hkey]; rfl)] at hconnection
    cases hconnection

/-- A tenant without a connection string is told so, and there is no other error. -/
theorem IsAccepted.connectionString_eq_error_iff (h : s.IsAccepted) {t : Tenant}
    {e : GatewayError} :
    (TenantRegistry.ofSettings s).connectionString t = .error e ↔
      (∀ connection, ¬ s.Connects t connection) ∧ e = .badConnection t.key := by
  simp only [h.connects_iff]
  -- all ways to fail end in one error: no key, no entry of the key, a blank one
  have hone : ∀ e', (TenantRegistry.ofSettings s).connectionString t = .error e' →
      e' = .badConnection t.key := by
    intro e' he'
    rw [TenantRegistry.connectionString] at he'
    split at he'
    · exact (Except.error.inj he').symm
    · split at he'
      · split at he'
        · exact (Except.error.inj he').symm
        · cases he'
      · exact (Except.error.inj he').symm
  constructor
  · intro herror
    refine ⟨fun connection hconnection => ?_, hone e herror⟩
    rw [herror] at hconnection
    cases hconnection
  · -- what is not connected is refused, since there is no third outcome
    rintro ⟨hnone, rfl⟩
    cases hconnection : (TenantRegistry.ofSettings s).connectionString t with
    | ok connection => exact absurd hconnection (hnone connection)
    | error e' => rw [hone e' hconnection]

end Settings

end QueryGateway
