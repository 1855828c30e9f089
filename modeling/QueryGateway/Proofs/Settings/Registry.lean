import QueryGateway.Proofs.Command.Compilation
import QueryGateway.Proofs.Keyed
import QueryGateway.Proofs.Settings.Validation
import QueryGateway.Tenant

/-!
# The registry of settings

Contexts are a table, and a table has no order, but both validation and the registry go over it
entry by entry. `registry_of_perm` says that the order makes no difference: settings are accepted in
all orders of their contexts or in none, exactly if they are valid, and the registries of all orders
are one. A name leads to the tenant of the context of its key, and the key of a tenant to the
tenant.

The registry puts tenants under their keys, one in place of another of its key. Contexts whose keys
differ are never in each other's way, so each has its tenant (`tenants_ofSettings`). That validation
and registry take names to keys alike, and that the key of a key is the key itself, is what makes
the keys of valid settings differ in the registry too.
-/

namespace QueryGateway

open Text

theorem TenantRegistry.put_eq_put (t : Tenant) (tenants : List Tenant) :
    TenantRegistry.put t tenants = Keyed.put Tenant.key t tenants := by
  induction tenants with
  | nil => rfl
  | cons other rest ih => rw [TenantRegistry.put, Keyed.put, ih]

namespace TenantRegistry

variable {s : Settings}

section DifferentKeys

variable (h : (s.contexts.map fun c => contextKey c.1).Nodup)

include h

/-- **Each context has its tenant.** -/
theorem tenants_ofSettings :
    (ofSettings s).tenants = s.contexts.map fun c => .ofContext c.1 c.2 := by
  -- the registry is built by putting one tenant after the other, under the key of the context
  have hput : (ofSettings s).tenants =
      Keyed.putAll Tenant.key [] (s.contexts.map fun c => .ofContext c.1 c.2) := by
    rw [Keyed.putAll, List.foldl_map]
    simp only [← put_eq_put]
    rfl
  rw [hput, Keyed.putAll_of_nodup]
  · rfl
  · -- the key of a tenant is that of its context
    rw [List.map_map, List.map_nil, List.nil_append]
    exact h

theorem nodup_tenants_ofSettings : ((ofSettings s).tenants.map Tenant.key).Nodup := by
  rw [tenants_ofSettings h, List.map_map]
  exact h

/-- **A name leads to the context of its key.** -/
theorem find?_ofSettings_eq_some_iff {name : String} {t : Tenant} :
    (ofSettings s).find? name = some t ↔
      isAllBlank name = false ∧ ∃ c ∈ s.contexts, contextKey c.1 = contextKey name ∧
        t = .ofContext c.1 c.2 := by
  rw [find?]
  cases isAllBlank name with
  | true => simp
  -- what is found under a key is its tenant, since no key is there twice
  | false =>
    rw [if_neg Bool.false_ne_true, Keyed.find?_eq_some_iff (nodup_tenants_ofSettings h),
      tenants_ofSettings h, List.mem_map]
    constructor
    · rintro ⟨⟨c, hc, rfl⟩, hkey⟩
      exact ⟨rfl, c, hc, hkey, rfl⟩
    · rintro ⟨-, c, hc, hkey, rfl⟩
      exact ⟨⟨c, hc, rfl⟩, hkey⟩

end DifferentKeys

/-! ### Orders of the contexts -/

/-- **The key of a tenant leads to the tenant.** -/
theorem find?_key (h : s.IsValid) {t : Tenant} (ht : t ∈ (ofSettings s).tenants) :
    (ofSettings s).find? t.key = some t := by
  rw [tenants_ofSettings h.keys] at ht
  obtain ⟨c, hc, rfl⟩ := List.mem_map.1 ht
  refine (find?_ofSettings_eq_some_iff h.keys).2 ⟨?_, c, hc, ?_, rfl⟩
  · -- the key of a name that is not blank is not blank either
    have hname : isAllBlank c.1 = false := h.names c hc
    rw [← hname]
    exact isAllBlank_contextKey c.1
  · exact (contextKey_contextKey c.1).symm

end TenantRegistry

theorem Settings.IsValid.of_perm {s : Settings} (h : s.IsValid)
    {visited : List (String × ContextSettings)} (hperm : visited.Perm s.contexts) :
    { s with contexts := visited }.IsValid where
  dataSourcesPath := h.dataSourcesPath
  names c hc := h.names c (hperm.subset hc)
  keys := (hperm.map _).nodup_iff.2 h.keys
  aliases c hc := h.aliases c (hperm.subset hc)

/-- **The order of the contexts makes no difference.** Visited in any order, settings are accepted
exactly if they are valid. If they are, the registry has a tenant for each context, a name leads to
the tenant of the one context of its key, which no other order changes, and the key of a tenant
leads to the tenant. -/
theorem Settings.registry_of_perm (s : Settings) {visited : List (String × ContextSettings)}
    (hperm : visited.Perm s.contexts) :
    let reordered : Settings := { s with contexts := visited }
    let r := TenantRegistry.ofSettings reordered
    (reordered.validate = .ok () ↔ s.IsValid) ∧
    (s.validate = .ok () →
      r.tenants.Perm (TenantRegistry.ofSettings s).tenants ∧
      r.tenants.Perm (s.contexts.map fun c => .ofContext c.1 c.2) ∧
      r.connectionStrings = (TenantRegistry.ofSettings s).connectionStrings ∧
      (∀ name, r.find? name = (TenantRegistry.ofSettings s).find? name) ∧
      (∀ name t, r.find? name = some t ↔ isAllBlank name = false ∧
        ∃ c ∈ s.contexts, contextKey c.1 = contextKey name ∧ t = .ofContext c.1 c.2) ∧
      ∀ t ∈ r.tenants, r.find? t.key = some t) := by
  intro reordered r
  refine ⟨?_, fun hvalidate => ?_⟩
  · rw [validate_eq_ok_iff]
    refine ⟨fun h => ?_, fun h => h.of_perm hperm⟩
    -- the settings are an order of the contexts that were visited
    exact h.of_perm hperm.symm
  · have hvalid : s.IsValid := validate_eq_ok_iff.1 hvalidate
    have hvalid' : reordered.IsValid := hvalid.of_perm hperm
    -- every order gives the tenants of its own, and so the same ones in another order
    have htenants : r.tenants.Perm (s.contexts.map fun c => .ofContext c.1 c.2) := by
      rw [TenantRegistry.tenants_ofSettings hvalid'.keys]
      exact hperm.map _
    -- which context has the key does not depend on the order
    have hfind : ∀ name t, r.find? name = some t ↔ isAllBlank name = false ∧
        ∃ c ∈ s.contexts, contextKey c.1 = contextKey name ∧ t = .ofContext c.1 c.2 := by
      intro name t
      rw [TenantRegistry.find?_ofSettings_eq_some_iff hvalid'.keys]
      simp only [reordered, hperm.mem_iff]
    refine ⟨?_, htenants, rfl, fun name => ?_, hfind, fun t ht => ?_⟩
    · rw [TenantRegistry.tenants_ofSettings hvalid.keys]
      exact htenants
    · -- both lead to what the name leads to in the settings
      refine Option.ext fun t => ?_
      rw [hfind, TenantRegistry.find?_ofSettings_eq_some_iff hvalid.keys]
    · exact TenantRegistry.find?_key hvalid' ht

/-! ### Two orders of two contexts -/

/-- A context whose name ends in a capital sigma, between blanks. -/
def roadContext : String × ContextSettings :=
  (" ΟΔΟΣ ", ⟨"Road", " Db ", [⟨" a ", "one"⟩, ⟨"b", " two"⟩]⟩)

def plainContext : String × ContextSettings := ("Dev", {})

def roadSettings : Settings where
  contexts := [roadContext, plainContext]

/-- What is found under the name of the one context, in another case, and under its key. -/
theorem Settings.registry_of_perm_road :
    [plainContext, roadContext].Perm roadSettings.contexts ∧
      roadSettings.validate = .ok () ∧
      let reordered : Settings := { roadSettings with contexts := [plainContext, roadContext] }
      let r := TenantRegistry.ofSettings reordered
      let road : Tenant := ⟨"οδος", "Road", "Db", [⟨"a", "one"⟩, ⟨"b", "two"⟩]⟩
      reordered.validate = .ok () ∧ r.tenants.length = 2 ∧
      r.find? "Οδος" = some road ∧ r.find? road.key = some road ∧
      (TenantRegistry.ofSettings roadSettings).find? "Οδος" = some road ∧
      r.find? " " = none := by
  have hperm : [plainContext, roadContext].Perm roadSettings.contexts := List.Perm.swap _ _ []
  have hvalidate : roadSettings.validate = .ok () :=
    except_eq_ok_of_toOption (by decide +kernel)
  -- the theorem says what is found, once the context of the name is known
  obtain ⟨haccepts, hregistry⟩ := roadSettings.registry_of_perm hperm
  obtain ⟨-, htenants, -, hsame, hfind, hkey⟩ := hregistry hvalidate
  have hroad : Tenant.ofContext roadContext.1 roadContext.2 =
      ⟨"οδος", "Road", "Db", [⟨"a", "one"⟩, ⟨"b", "two"⟩]⟩ := by decide +kernel
  have hfound := (hfind "Οδος" _).2
    ⟨by decide, roadContext, List.mem_cons_self, by decide +kernel, hroad.symm⟩
  refine ⟨hperm, hvalidate, ?_, htenants.length_eq, hfound, ?_, ?_, ?_⟩
  · exact haccepts.2 (validate_eq_ok_iff.1 hvalidate)
  · refine hkey _ (htenants.symm.subset ?_)
    rw [← hroad]
    exact List.mem_map_of_mem List.mem_cons_self
  · rw [← hsame]
    exact hfound
  · -- a blank name leads nowhere
    refine Option.eq_none_iff_forall_ne_some.2 fun t ht => ?_
    obtain ⟨hblank, -⟩ := (hfind " " t).1 ht
    revert hblank
    decide

end QueryGateway
