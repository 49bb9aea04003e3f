import AiAgent.Auth.Access
import AiAgent.Auth.Refresh

/-!
# Which model answers

A request may name a model, by its key or by its name. If it names none, the model of the session
counts, and at a login, where there is none yet, the default one or else the first.

Whatever is asked, the model is one that the groups of the user give access to. A model that is
named is never replaced by another: the request is answered by it, or by an error that says its
name. Only a login falls back, and then it finds a model whenever the user may use any
(`AiAgent.Auth.chosen_of_policies`).
-/

namespace AiAgent

namespace Auth

open Text

/-! ### Reading the catalog -/

/-- The errors of the choice. All but those of the catalogs are a `LookupError`. -/
inductive ChoiceError where
  /-- `NO_LLM_MODELS_AVAILABLE_ERROR` -/
  | noModels
  | notFound (requested : Text)
  /-- `KeyError` -/
  | missing (key : Text)
  | catalog (e : CatalogError)
  deriving DecidableEq

/-- `str(exc)`, where it is a `LookupError`. -/
def ChoiceError.message : ChoiceError → Option Text
  | .noModels => some "No LLM models available".toList
  | .notFound requested => some ("LLM model not found: ".toList ++ requested)
  | .missing key => some ('\'' :: key ++ "'".toList)
  | .catalog _ => none

/-- `model_info[key]`, of a text. -/
def textAt (modelInfo : Dict Text Json) (key : Text) : Except ChoiceError Text :=
  match modelInfo.get? key with
  | some (.str value) => .ok value
  | _ => .error (.missing key)

/-- The model under a key, as it is answered. -/
def describe (key : Text) (modelInfo : Dict Text Json) : Except ChoiceError ModelInfo := do
  let name ← textAt modelInfo "name".toList
  let description ← textAt modelInfo "description".toList
  pure ⟨name, description, key⟩

def isNamed (name : Text) (modelInfo : Dict Text Json) : Bool :=
  match modelInfo.get? "name".toList with
  | some (.str given) => given = name
  | _ => false

/-- The first model of that name. -/
def firstNamed (candidate : Text) :
    List (Text × Dict Text Json) → Except ChoiceError (Option ModelInfo)
  | [] => .ok none
  | (key, modelInfo) :: rest => do
    let name ← textAt modelInfo "name".toList
    if name = candidate then
      let found ← describe key modelInfo
      pure (some found)
    else firstNamed candidate rest

/-- `resolve_model_identifier`. -/
def resolveModelIdentifier (modelIdentifier : Text) (allowedModels : Dict Text (Dict Text Json)) :
    Except ChoiceError (Option ModelInfo) :=
  let candidate := strip modelIdentifier
  if candidate = [] then .ok none
  else
    match allowedModels.get? candidate with
    | some modelInfo => do
      let found ← describe candidate modelInfo
      pure (some found)
    | none => firstNamed candidate allowedModels.entries

/-- `pick_available_model`. -/
def pickAvailableModel (defaultModel : Text) (availableModels : Dict Text (Dict Text Json)) :
    Option Text :=
  if defaultModel = [] then availableModels.keys.head?
  else if defaultModel ∈ availableModels.keys then some defaultModel
  else
    match availableModels.entries.find? fun e => isNamed defaultModel e.2 with
    | some e => some e.1
    | none => availableModels.keys.head?

/-- The key that the choice falls back to. -/
def fallbackKey (defaultModel : Text) (allowedModels : Dict Text (Dict Text Json)) : Option Text :=
  match pickAvailableModel defaultModel allowedModels with
  | none | some [] => allowedModels.keys.head?
  | some key => some key

/-! ### The choice -/

section Choice

variable (builtins : Builtins) (lowerCase : Text → Text) (sources : AccessSources)
  (defaultModel : Text)

/-- `get_allowed_models_for_user`, among the models that the choice is given. -/
def allowedModels (user : Identity) (availableModels : Dict Text (Dict Text Json)) :
    Except ChoiceError (Dict Text (Dict Text Json)) :=
  match getAllowedModelsForUser builtins lowerCase sources .empty user.username user.groups
    (some availableModels) with
  | .ok allowed => .ok allowed
  | .error e => .error (.catalog e)

/-- `resolve_model`, once the models that are allowed are known. -/
def resolveModel (user : Identity) (allowed : Dict Text (Dict Text Json)) (allowFallback : Bool) :
    Except ChoiceError ModelInfo := do
  let resolved ← resolveModelIdentifier user.modelKey allowed
  match resolved with
  | some found => pure found
  | none =>
    let resolved ← resolveModelIdentifier user.model allowed
    match resolved with
    | some found => pure found
    | none =>
      match (if allowFallback then fallbackKey defaultModel allowed else none) with
      | some key => describe key ((allowed.get? key).getD .empty)
      | none => .error (.notFound (orText
          (some (strip (orText (some user.modelKey) user.model))) "unknown".toList))

/-- `resolve_requested_model`. -/
def resolveRequestedModel (user : Identity) (availableModels : Dict Text (Dict Text Json))
    (requestedModel : Option Text) (allowUserFallback : Bool) : Except ChoiceError ModelInfo := do
  let allowed ← allowedModels builtins lowerCase sources user availableModels
  if allowed.entries = [] then .error .noModels
  else
    let resolved ← resolveModelIdentifier (requestedModel.getD []) allowed
    match resolved with
    | some found => pure found
    | none =>
      if strip (requestedModel.getD []) ≠ [] then
        .error (.notFound (strip (requestedModel.getD [])))
      else resolveModel defaultModel user allowed allowUserFallback

/-- `resolve_runtime_model`. -/
def resolveRuntimeModel (user : Identity) (availableModels : Dict Text (Dict Text Json))
    (requestedModel : Option Text) (allowUserFallback : Bool) : Except ChoiceError ModelInfo :=
  if availableModels.entries = [] then .error .noModels
  else resolveRequestedModel builtins lowerCase sources defaultModel user availableModels
    requestedModel allowUserFallback

/-- `get_placeholder_model_info`. -/
def getPlaceholderModelInfo : ModelInfo :=
  let placeholderKey := orText (some defaultModel) "llm-unavailable".toList
  ⟨placeholderKey, "LLM runtime unavailable".toList, placeholderKey⟩

/-- The model of a new session: where none is found, the placeholder. An error that is no
`LookupError` is let through. -/
def modelOfLogin (user : Identity) (availableModels : Dict Text (Dict Text Json)) :
    Except CatalogError ModelInfo :=
  match resolveRuntimeModel builtins lowerCase sources defaultModel user availableModels none
    true with
  | .ok found => .ok found
  | .error (.catalog e) => .error e
  | .error _ => .ok (getPlaceholderModelInfo defaultModel)

end Choice

/-! ### What is allowed is described -/

/-- The model is the entry under its key. -/
structure IsModel (allowed : Dict Text (Dict Text Json)) (m : ModelInfo) : Prop where
  listed : ∃ modelInfo, allowed.get? m.key = some modelInfo ∧
    modelInfo.get? "name".toList = some (.str m.name) ∧
    modelInfo.get? "description".toList = some (.str m.description)

/-- Each model has a name and a description, as those have that the server lists. -/
def Described (models : Dict Text (Dict Text Json)) : Prop :=
  ∀ e ∈ models.entries, (∃ name, e.2.get? "name".toList = some (.str name)) ∧
    ∃ description, e.2.get? "description".toList = some (.str description)

theorem textAt_eq_ok {modelInfo : Dict Text Json} {key value : Text} :
    textAt modelInfo key = .ok value ↔ modelInfo.get? key = some (.str value) := by
  rw [textAt]
  split
  next given hgiven => rw [hgiven, Except.ok.injEq, Option.some_inj, Json.str.injEq]
  next hgiven =>
    constructor
    · intro h
      cases h
    · intro h
      exact absurd h (hgiven value)

theorem describe_eq_ok {key : Text} {modelInfo : Dict Text Json} {m : ModelInfo} :
    describe key modelInfo = .ok m ↔ m.key = key ∧
      modelInfo.get? "name".toList = some (.str m.name) ∧
      modelInfo.get? "description".toList = some (.str m.description) := by
  rw [describe, ← textAt_eq_ok, ← textAt_eq_ok]
  rcases textAt modelInfo "name".toList with e | name
  · simp [bind, Except.bind]
  rcases textAt modelInfo "description".toList with e | description
  · simp [bind, Except.bind]
  · obtain ⟨name', description', key'⟩ := m
    simp only [ok_bind, pure, Except.pure, Except.ok.injEq, ModelInfo.mk.injEq]
    tauto

section Allowed

variable {builtins : Builtins} {lowerCase : Text → Text} {sources : AccessSources}
  {user : Identity} {availableModels allowed : Dict Text (Dict Text Json)}

/-- What is got of a live model keeps its name and its description. -/
theorem get?_resolveModelAccessEntry {liveModel : Dict Text Json} {modelKey categoryKey : Text}
    {policyModel : Option PolicyModel} {registryModel : Option RegistryEntry} {name key : Text}
    (hname : liveModel.get? "name".toList = some (.str name))
    (hkey : key = "name".toList ∨ key = "description".toList) :
    (resolveModelAccessEntry liveModel modelKey categoryKey policyModel registryModel).get? key =
      liveModel.get? key := by
  have hdefault : ∀ v, liveModel.setDefault "name".toList v = liveModel := fun v =>
    if_pos (Dict.mem_keys_of_get? hname)
  simp only [resolveModelAccessEntry, hdefault]
  have hne : key ≠ "category".toList ∧ key ≠ "policy_display_name".toList ∧
      key ≠ "requires_gpu".toList ∧ key ≠ "experimental".toList := by
    rcases hkey with rfl | rfl <;> decide
  rw [Dict.get?_set, Dict.get?_set, Dict.get?_set, Dict.get?_set, if_neg hne.2.2.2.symm,
    if_neg hne.2.2.1.symm, if_neg hne.2.1.symm, if_neg hne.1.symm]

/-- An entry that is a live model, seen through a policy. -/
def IsSeen (models : Dict Text (Dict Text Json)) (e : Text × Dict Text Json) : Prop :=
  ∃ liveModel categoryKey policyModel registryModel, (e.1, liveModel) ∈ models.entries ∧
    e.2 = resolveModelAccessEntry liveModel e.1 categoryKey policyModel registryModel

theorem isSeen_of_registryAccess {models : Dict Text (Dict Text Json)}
    {policyCatalog : Dict Text CategoryPolicy} {registryModels : List RegistryEntry}
    {e : Text × Dict Text Json} (h : e ∈ registryAccess models policyCatalog registryModels) :
    IsSeen models e := by
  obtain ⟨m, -, haccess⟩ := List.mem_filterMap.mp h
  rw [registryModelAccess] at haccess
  dsimp only at haccess
  obtain ⟨-, haccess⟩ := Option.ite_none_left_eq_some.mp haccess
  obtain ⟨liveModel, hget, rfl⟩ := Option.map_eq_some_iff.mp haccess
  exact ⟨liveModel, _, _, _, Dict.get?_eq_some_iff.mp hget, rfl⟩

theorem isSeen_of_policyAccess {models : Dict Text (Dict Text Json)}
    {policyCatalog : Dict Text CategoryPolicy} {categories : List Text}
    {e : Text × Dict Text Json} (h : e ∈ policyAccess models policyCatalog categories) :
    IsSeen models e := by
  obtain ⟨categoryKey, -, hmem⟩ := List.mem_flatMap.mp h
  obtain ⟨e', -, haccess⟩ := List.mem_filterMap.mp hmem
  obtain ⟨liveModel, hget, rfl⟩ := Option.map_eq_some_iff.mp haccess
  exact ⟨liveModel, _, _, _, Dict.get?_eq_some_iff.mp hget, rfl⟩

/-- Where the settings have no models of their own, those that are passed are live. -/
theorem liveModels_some (models : Dict Text (Dict Text Json)) :
    liveModels .empty (some models) = models := by
  rcases models with ⟨_ | ⟨e, entries⟩, hnodup⟩ <;> rfl

/-- **A model that is allowed is one of those that are live**, seen through the policies. -/
theorem isSeen_of_allowed (h : allowedModels builtins lowerCase sources user availableModels =
    .ok allowed) {e : Text × Dict Text Json} (he : e ∈ allowed.entries) :
    IsSeen availableModels e := by
  rw [allowedModels] at h
  split at h
  next allowed' hallowed =>
    obtain rfl := Except.ok.inj h
    have hlive := liveModels_some availableModels
    rw [liveModels] at hlive
    simp only [getAllowedModelsForUser, hlive] at hallowed
    split at hallowed
    next hnone =>
      cases hallowed
      exact absurd he List.not_mem_nil
    rcases hpolicies : loadModelPolicyCatalog builtins lowerCase sources.modelPolicyDir with
      e' | policyCatalog
    · rw [hpolicies] at hallowed
      cases hallowed
    simp only [hpolicies, ok_bind] at hallowed
    split at hallowed
    next hnone =>
      cases hallowed
      exact absurd he List.not_mem_nil
    rcases hfile : loadModelRegistryCatalog builtins lowerCase sources.modelRegistryPath with
      e' | registryCatalog
    · rw [hfile] at hallowed
      cases hallowed
    simp only [hfile, ok_bind] at hallowed
    -- The validation user may use every model of the registry.
    split at hallowed
    next =>
      cases hallowed
      exact isSeen_of_registryAccess (Dict.mem_of_mem_ofPairs he)
    split at hallowed
    next =>
      cases hallowed
      exact absurd he List.not_mem_nil
    -- Where the registry lists models they count, else the policies do.
    split at hallowed
    next =>
      cases hallowed
      exact isSeen_of_registryAccess (Dict.mem_of_mem_ofPairs he)
    next =>
      cases hallowed
      exact isSeen_of_policyAccess (Dict.mem_of_mem_ofPairs he)
  next => cases h

theorem described_of_allowed (hdescribed : Described availableModels)
    (h : allowedModels builtins lowerCase sources user availableModels = .ok allowed) :
    Described allowed := by
  rintro e he
  obtain ⟨liveModel, c, p, r, hlive, heq⟩ := isSeen_of_allowed h he
  obtain ⟨⟨name, hname⟩, description, hdescription⟩ := hdescribed _ hlive
  rw [heq, get?_resolveModelAccessEntry hname (.inl rfl),
    get?_resolveModelAccessEntry hname (.inr rfl)]
  exact ⟨⟨name, hname⟩, description, hdescription⟩

/-- Each entry that is described is a model. -/
theorem Described.exists_isModel (h : Described allowed) {key : Text}
    {modelInfo : Dict Text Json} (hentry : (key, modelInfo) ∈ allowed.entries) :
    ∃ m, IsModel allowed m ∧ describe key modelInfo = .ok m ∧
      textAt modelInfo "name".toList = .ok m.name := by
  obtain ⟨⟨name, hname⟩, description, hdescription⟩ := h _ hentry
  refine ⟨⟨name, description, key⟩, ⟨modelInfo, Dict.get?_eq_some_iff.mpr hentry, hname,
    hdescription⟩, describe_eq_ok.mpr ⟨rfl, hname, hdescription⟩, textAt_eq_ok.mpr hname⟩

/-! ### Looking for a model -/

/-- What looking for a text ends in: a model under it, or else the first one of that name. -/
inductive Found (allowed : Dict Text (Dict Text Json)) (candidate : Text) : Option ModelInfo → Prop
  | byKey {m : ModelInfo} (h : IsModel allowed m) (hkey : m.key = candidate) :
      Found allowed candidate (some m)
  | byName {m : ModelInfo} (h : IsModel allowed m) (hkey : candidate ∉ allowed.keys)
      (hname : m.name = candidate) : Found allowed candidate (some m)
  | nowhere (hkey : candidate ∉ allowed.keys)
      (hname : ∀ m, IsModel allowed m → m.name ≠ candidate) : Found allowed candidate none

theorem Found.isModel {candidate : Text} {m : ModelInfo} (h : Found allowed candidate (some m)) :
    IsModel allowed m := by
  rcases h with ⟨h, -⟩ | ⟨h, -, -⟩ <;> exact h

/-- Going through the entries. -/
theorem firstNamed_of_described (hdescribed : Described allowed) (candidate : Text)
    {entries : List (Text × Dict Text Json)} (hentries : entries ⊆ allowed.entries) :
    (∃ m, firstNamed candidate entries = .ok (some m) ∧ IsModel allowed m ∧ m.name = candidate) ∨
      firstNamed candidate entries = .ok none ∧
        ∀ e ∈ entries, textAt e.2 "name".toList ≠ .ok candidate := by
  induction entries with
  | nil => exact .inr ⟨rfl, by simp⟩
  | cons e entries ih =>
    obtain ⟨hentry, hrest⟩ := List.cons_subset.mp hentries
    obtain ⟨m, hm, hdescribe, hname⟩ := hdescribed.exists_isModel hentry
    simp only [firstNamed, hname, ok_bind, hdescribe]
    by_cases hcandidate : m.name = candidate
    · rw [if_pos hcandidate]
      exact .inl ⟨m, rfl, hm, hcandidate⟩
    · rw [if_neg hcandidate]
      refine (ih hrest).imp id fun ⟨hnone, hall⟩ => ⟨hnone, fun e' he' => ?_⟩
      rcases List.mem_cons.mp he' with rfl | he'
      · rw [hname]
        exact fun h => hcandidate (Except.ok.inj h)
      · exact hall e' he'

/-- **Looking for a text** among models that are described never raises. -/
theorem found_resolveModelIdentifier (hdescribed : Described allowed) {identifier : Text}
    (hne : strip identifier ≠ []) : ∃ found, resolveModelIdentifier identifier allowed = .ok found ∧
      Found allowed (strip identifier) found := by
  rw [resolveModelIdentifier, if_neg hne]
  split
  next modelInfo hget =>
    obtain ⟨m, hm, hdescribe, -⟩ := hdescribed.exists_isModel (Dict.get?_eq_some_iff.mp hget)
    refine ⟨some m, ?_, .byKey hm (describe_eq_ok.mp hdescribe).1⟩
    rw [hdescribe]
    rfl
  next hget =>
    have hkey : strip identifier ∉ allowed.keys := by
      intro hmem
      obtain ⟨v, hv⟩ := Dict.exists_get?_of_mem_keys hmem
      rw [hget] at hv
      cases hv
    rcases firstNamed_of_described hdescribed (strip identifier) (List.Subset.refl _) with
      ⟨m, hfirst, hm, hname⟩ | ⟨hfirst, hall⟩
    · exact ⟨some m, hfirst, .byName hm hkey hname⟩
    · refine ⟨none, hfirst, .nowhere hkey fun m hm hname => ?_⟩
      obtain ⟨modelInfo, hlisted, hgiven, -⟩ := hm.listed
      exact hall _ (Dict.get?_eq_some_iff.mp hlisted)
        (textAt_eq_ok.mpr (hname ▸ hgiven))

/-- Looking for a text that is blank finds nothing. -/
theorem resolveModelIdentifier_blank {identifier : Text} (h : strip identifier = []) :
    resolveModelIdentifier identifier allowed = .ok none := if_pos h

/-- What is fallen back to is the key of a model, the default one if that is among them. -/
theorem exists_fallbackKey (hne : allowed.entries ≠ []) (defaultModel : Text) :
    ∃ key ∈ allowed.keys, fallbackKey defaultModel allowed = some key ∧
      (defaultModel ≠ [] → defaultModel ∈ allowed.keys → key = defaultModel) := by
  obtain ⟨first, hfirst⟩ : ∃ first, allowed.keys.head? = some first := by
    rw [Dict.keys, List.head?_map]
    obtain ⟨e, rest, hentries⟩ := List.exists_cons_of_ne_nil hne
    exact ⟨e.1, by rw [hentries]; rfl⟩
  by_cases hdefault : defaultModel ≠ [] ∧ defaultModel ∈ allowed.keys
  · refine ⟨defaultModel, hdefault.2, ?_, fun _ _ => rfl⟩
    obtain ⟨c, t, hcons⟩ := List.exists_cons_of_ne_nil hdefault.1
    rw [fallbackKey, pickAvailableModel, if_neg hdefault.1, if_pos hdefault.2, hcons]
  · -- Whatever is picked is a key, and so is the first one.
    rw [fallbackKey]
    split
    · exact ⟨first, List.mem_of_mem_head? hfirst, hfirst, fun h h' => absurd ⟨h, h'⟩ hdefault⟩
    · exact ⟨first, List.mem_of_mem_head? hfirst, hfirst, fun h h' => absurd ⟨h, h'⟩ hdefault⟩
    next key hkey hpick =>
      refine ⟨key, ?_, rfl, fun h h' => absurd ⟨h, h'⟩ hdefault⟩
      rw [pickAvailableModel] at hpick
      split at hpick
      next => exact List.mem_of_mem_head? hpick
      split at hpick
      next h h' => exact absurd ⟨h, h'⟩ hdefault
      split at hpick
      next e he =>
        obtain rfl := Option.some.inj hpick
        exact List.mem_map_of_mem (List.mem_of_find?_eq_some he)
      next => exact List.mem_of_mem_head? hpick

/-- Falling back finds a model, the default one if that is among them. -/
theorem exists_isModel_of_fallback (hdescribed : Described allowed) (hne : allowed.entries ≠ [])
    (defaultModel : Text) : ∃ key m, fallbackKey defaultModel allowed = some key ∧
      describe key ((allowed.get? key).getD .empty) = .ok m ∧ IsModel allowed m ∧
      (defaultModel ≠ [] → defaultModel ∈ allowed.keys → m.key = defaultModel) := by
  obtain ⟨key, hkey, hpick, hdefault⟩ := exists_fallbackKey hne defaultModel
  obtain ⟨modelInfo, hget⟩ := Dict.exists_get?_of_mem_keys hkey
  obtain ⟨m, hm, hdescribe, -⟩ := hdescribed.exists_isModel (Dict.get?_eq_some_iff.mp hget)
  have heq : m.key = key := (describe_eq_ok.mp hdescribe).1
  refine ⟨key, m, hpick, ?_, hm, fun h h' => heq.trans (hdefault h h')⟩
  rw [hget]
  exact hdescribe

end Allowed

/-! ### Whatever is asked -/

section Asked

variable (builtins : Builtins) (lowerCase : Text → Text) (sources : AccessSources)
  (defaultModel : Text)

/-- **How a model is chosen** for a user, of those that are allowed. What is asked for is answered
by a model of that key or name, or refused; where nothing is asked for, the model of the session
counts; and a new session gets a model if any is allowed, the default one if possible. -/
structure Chosen (user : Identity) (availableModels allowed : Dict Text (Dict Text Json)) :
    Prop where
  asked : ∀ requested fallback, strip (requested.getD []) ≠ [] →
    ∃ found, Found allowed (strip (requested.getD [])) found ∧
      resolveRuntimeModel builtins lowerCase sources defaultModel user availableModels requested
        fallback = found.elim (.error (if allowed.entries = [] then .noModels
          else .notFound (strip (requested.getD [])))) .ok
  session : ∀ requested fallback, strip (requested.getD []) = [] → strip user.modelKey ≠ [] →
    strip user.modelKey ∈ allowed.keys →
    ∃ m, IsModel allowed m ∧ m.key = strip user.modelKey ∧
      resolveRuntimeModel builtins lowerCase sources defaultModel user availableModels requested
        fallback = .ok m
  isModel : ∀ requested fallback m, resolveRuntimeModel builtins lowerCase sources defaultModel
    user availableModels requested fallback = .ok m → IsModel allowed m
  login : modelOfLogin builtins lowerCase sources defaultModel user availableModels =
      .ok (getPlaceholderModelInfo defaultModel) ∧ allowed.entries = [] ∨
    ∃ m, modelOfLogin builtins lowerCase sources defaultModel user availableModels = .ok m ∧
      IsModel allowed m ∧ (strip user.modelKey = [] → strip user.model = [] →
        defaultModel ≠ [] → defaultModel ∈ allowed.keys → m.key = defaultModel)

variable {builtins lowerCase sources defaultModel} {user : Identity}
  {availableModels allowed : Dict Text (Dict Text Json)}

/-- The choice, once the models that are allowed are known. -/
theorem resolveRuntimeModel_eq
    (h : allowedModels builtins lowerCase sources user availableModels = .ok allowed)
    (requested : Option Text) (fallback : Bool) :
    resolveRuntimeModel builtins lowerCase sources defaultModel user availableModels requested
      fallback = if allowed.entries = [] then .error .noModels else (do
        let resolved ← resolveModelIdentifier (requested.getD []) allowed
        match resolved with
        | some found => pure found
        | none =>
          if strip (requested.getD []) ≠ [] then .error (.notFound (strip (requested.getD [])))
          else resolveModel defaultModel user allowed fallback) := by
  rw [resolveRuntimeModel, resolveRequestedModel, h, ok_bind]
  by_cases hlive : availableModels.entries = []
  · have hnone : allowed.entries = [] := by
      rw [List.eq_nil_iff_forall_not_mem]
      intro e he
      obtain ⟨liveModel, -, -, -, hmem, -⟩ := isSeen_of_allowed h he
      rw [hlive] at hmem
      exact List.not_mem_nil hmem
    rw [if_pos hlive, if_pos hnone]
  · rw [if_neg hlive]

/-- Looking for a text that may be blank never raises either. -/
theorem resolveModelIdentifier_of_described (hdescribed : Described allowed) (identifier : Text) :
    ∃ found, resolveModelIdentifier identifier allowed = .ok found ∧
      (∀ m, found = some m → IsModel allowed m) ∧
      (strip identifier = [] → found = none) ∧
      (strip identifier ≠ [] → strip identifier ∈ allowed.keys →
        ∃ m, found = some m ∧ m.key = strip identifier) := by
  by_cases hblank : strip identifier = []
  · exact ⟨none, resolveModelIdentifier_blank hblank, by simp, fun _ => rfl,
      fun h => absurd hblank h⟩
  · obtain ⟨found, hresolve, hfound⟩ := found_resolveModelIdentifier hdescribed hblank
    refine ⟨found, hresolve, ?_, fun h => absurd h hblank, fun _ hkey => ?_⟩
    · rintro m rfl
      exact hfound.isModel
    · rcases hfound with ⟨-, hm⟩ | ⟨-, hnone, -⟩ | ⟨hnone, -⟩
      · exact ⟨_, rfl, hm⟩
      · exact absurd hkey hnone
      · exact absurd hkey hnone

/-- **Without a model that is asked for**: that of the session, or that which is fallen back to, or
an error that says that there is none. -/
theorem resolveModel_of_described (defaultModel : Text) (user : Identity)
    (hdescribed : Described allowed) (hne : allowed.entries ≠ []) (fallback : Bool) :
    (∃ m, resolveModel defaultModel user allowed fallback = .ok m ∧ IsModel allowed m ∧
      (strip user.modelKey ≠ [] → strip user.modelKey ∈ allowed.keys →
        m.key = strip user.modelKey) ∧
      (strip user.modelKey = [] → strip user.model = [] → defaultModel ≠ [] →
        defaultModel ∈ allowed.keys → m.key = defaultModel)) ∨
    fallback = false ∧ ¬ (strip user.modelKey ≠ [] ∧ strip user.modelKey ∈ allowed.keys) ∧
      ∃ r, resolveModel defaultModel user allowed fallback = .error (.notFound r) := by
  obtain ⟨found, hkey, hisModel, hblank, hlisted⟩ :=
    resolveModelIdentifier_of_described hdescribed user.modelKey
  rcases found with _ | m
  · have hunlisted : ¬ (strip user.modelKey ≠ [] ∧ strip user.modelKey ∈ allowed.keys) := by
      rintro ⟨hkeyne, hmem⟩
      obtain ⟨m, hm, -⟩ := hlisted hkeyne hmem
      cases hm
    -- The key of the session is no model that is allowed, so its name counts.
    obtain ⟨found, hname, hisModel', hblank', -⟩ :=
      resolveModelIdentifier_of_described hdescribed user.model
    rcases found with _ | m
    -- Neither of them is one: a login falls back, any other request is refused.
    · rcases fallback with _ | _
      · refine .inr ⟨rfl, hunlisted, orText (some (strip (orText (some user.modelKey) user.model)))
          "unknown".toList, ?_⟩
        rw [resolveModel, hkey, ok_bind]
        dsimp only
        rw [hname, ok_bind]
        rfl
      · obtain ⟨key, m, hpick, hdescribe, hm, hdefault⟩ :=
          exists_isModel_of_fallback hdescribed hne defaultModel
        refine .inl ⟨m, ?_, hm, fun h h' => absurd ⟨h, h'⟩ hunlisted, fun _ _ => hdefault⟩
        rw [resolveModel, hkey, ok_bind]
        dsimp only
        rw [hname, ok_bind]
        dsimp only
        rw [if_pos rfl, hpick]
        exact hdescribe
    · refine .inl ⟨m, ?_, hisModel' m rfl, fun h h' => absurd ⟨h, h'⟩ hunlisted,
        fun _ h => by cases hblank' h⟩
      rw [resolveModel, hkey, ok_bind]
      dsimp only
      rw [hname, ok_bind]
      rfl
  · refine .inl ⟨m, ?_, hisModel m rfl, fun hkeyne hmem => ?_, fun h => by cases hblank h⟩
    · rw [resolveModel, hkey, ok_bind]
      rfl
    · obtain ⟨m', hm', heq⟩ := hlisted hkeyne hmem
      obtain rfl := Option.some.inj hm'
      exact heq

section Described

variable (hdescribed : Described availableModels)
  (hallowed : allowedModels builtins lowerCase sources user availableModels = .ok allowed)

include hallowed in
/-- **Nothing is asked for**: the session counts. -/
theorem resolveRuntimeModel_unasked {requested : Option Text}
    (hblank : strip (requested.getD []) = []) (hne : allowed.entries ≠ []) (fallback : Bool) :
    resolveRuntimeModel builtins lowerCase sources defaultModel user availableModels requested
      fallback = resolveModel defaultModel user allowed fallback := by
  rw [resolveRuntimeModel_eq hallowed, if_neg hne, resolveModelIdentifier_blank hblank, ok_bind]
  exact if_neg (not_not.mpr hblank)

include hdescribed hallowed in
/-- **A model is asked for**: it is found and answers, or an error says its name. -/
theorem resolveRuntimeModel_asked {requested : Option Text}
    (hne : strip (requested.getD []) ≠ []) (fallback : Bool) :
    ∃ found, Found allowed (strip (requested.getD [])) found ∧
      resolveRuntimeModel builtins lowerCase sources defaultModel user availableModels requested
        fallback = found.elim (.error (if allowed.entries = [] then .noModels
          else .notFound (strip (requested.getD [])))) .ok := by
  obtain ⟨found, hresolve, hfound⟩ :=
    found_resolveModelIdentifier (described_of_allowed hdescribed hallowed) hne
  refine ⟨found, hfound, ?_⟩
  rw [resolveRuntimeModel_eq hallowed, hresolve, ok_bind]
  by_cases hnone : allowed.entries = []
  · -- Of no models there is none to be found.
    rcases found with _ | m
    · rw [if_pos hnone, Option.elim_none, if_pos hnone]
    · obtain ⟨modelInfo, hget, -⟩ := hfound.isModel.listed
      have hmem := Dict.get?_eq_some_iff.mp hget
      rw [hnone] at hmem
      exact absurd hmem List.not_mem_nil
  · rw [if_neg hnone]
    rcases found with _ | m
    · rw [Option.elim_none, if_neg hnone]
      exact if_pos hne
    · rfl

include hallowed in
/-- No model answers where none is allowed. -/
theorem entries_ne_nil_of_resolveRuntimeModel {requested : Option Text} {fallback : Bool}
    {m : ModelInfo} (h : resolveRuntimeModel builtins lowerCase sources defaultModel user
      availableModels requested fallback = .ok m) : allowed.entries ≠ [] := by
  intro hnone
  rw [resolveRuntimeModel_eq hallowed, if_pos hnone] at h
  cases h

include hdescribed hallowed in
/-- **Whatever is asked, the model that answers is one that is allowed.** -/
theorem isModel_of_resolveRuntimeModel {requested : Option Text} {fallback : Bool} {m : ModelInfo}
    (h : resolveRuntimeModel builtins lowerCase sources defaultModel user availableModels requested
      fallback = .ok m) : IsModel allowed m := by
  have hne := entries_ne_nil_of_resolveRuntimeModel hallowed h
  by_cases hblank : strip (requested.getD []) = []
  · rw [resolveRuntimeModel_unasked hallowed hblank hne] at h
    rcases resolveModel_of_described defaultModel user (described_of_allowed hdescribed hallowed)
      hne fallback with ⟨m', hok, hm', -⟩ | ⟨-, -, r, herror⟩
    · rw [hok] at h
      exact Except.ok.inj h ▸ hm'
    · rw [herror] at h
      cases h
  · obtain ⟨found, hfound, hresult⟩ :=
      resolveRuntimeModel_asked hdescribed hallowed hblank fallback
    rw [hresult] at h
    rcases found with _ | m'
    · cases h
    · exact Except.ok.inj h ▸ hfound.isModel

include hdescribed hallowed in
/-- **The choice, of models that are described.** -/
theorem chosen_of_described :
    Chosen builtins lowerCase sources defaultModel user availableModels allowed := by
  have hdesc := described_of_allowed hdescribed hallowed
  constructor
  case asked =>
    exact fun requested fallback hne => resolveRuntimeModel_asked hdescribed hallowed hne fallback
  case session =>
    intro requested fallback hblank hkeyne hkey
    have hne : allowed.entries ≠ [] := by
      intro hnone
      rw [Dict.keys, hnone] at hkey
      exact List.not_mem_nil hkey
    rcases resolveModel_of_described defaultModel user hdesc hne fallback with
      ⟨m, hok, hm, hsession, -⟩ | ⟨-, hunlisted, -⟩
    · exact ⟨m, hm, hsession hkeyne hkey,
        (resolveRuntimeModel_unasked hallowed hblank hne fallback).trans hok⟩
    · exact absurd ⟨hkeyne, hkey⟩ hunlisted
  case isModel =>
    exact fun requested fallback m hm => isModel_of_resolveRuntimeModel hdescribed hallowed hm
  case login =>
    by_cases hnone : allowed.entries = []
    · refine .inl ⟨?_, hnone⟩
      rw [modelOfLogin, resolveRuntimeModel_eq hallowed, if_pos hnone]
    · rcases resolveModel_of_described defaultModel user hdesc hnone true with
        ⟨m, hok, hm, -, hdefault⟩ | ⟨hfalse, -⟩
      · refine .inr ⟨m, ?_, hm, hdefault⟩
        rw [modelOfLogin, resolveRuntimeModel_unasked hallowed rfl hnone, hok]
      · cases hfalse

end Described

/-- **The model that answers is accessible to the groups of the user**, who is not the validation
user, whatever is asked. -/
theorem chosen_of_policies {policyCatalog : Dict Text CategoryPolicy}
    {registryCatalog : RegistryCatalog}
    (hpolicies : loadModelPolicyCatalog builtins lowerCase sources.modelPolicyDir =
      .ok policyCatalog) (hcatalog : policyCatalog.entries ≠ [])
    (hfile : loadModelRegistryCatalog builtins lowerCase sources.modelRegistryPath =
      .ok registryCatalog) (hregistry : registryCatalog.models.entries ≠ [])
    (huser : isValidationUser lowerCase (sources.policy lowerCase policyCatalog registryCatalog)
      user.username = false) (hdescribed : Described availableModels) :
    ∃ allowed, Chosen builtins lowerCase sources defaultModel user availableModels allowed ∧
      ∀ key, key ∈ allowed.keys ↔
        Accessible sources lowerCase availableModels policyCatalog registryCatalog user.groups
          key := by
  have hallowed : getAllowedModelsForUser builtins lowerCase sources .empty user.username
      user.groups (some availableModels) = _ :=
    getAllowedModelsForUser_eq hpolicies hcatalog hfile hregistry huser
  rw [liveModels_some] at hallowed
  refine ⟨_, chosen_of_described hdescribed (by rw [allowedModels, hallowed]), fun key => ?_⟩
  rw [mem_keys_registryAccess fun m hm => (mem_iterRegistryModels.mp hm).1]
  refine and_congr_right fun _ => ⟨?_, ?_⟩
  · rintro ⟨m, hm, hkey⟩
    obtain ⟨-, htier⟩ := mem_iterRegistryModels.mp hm
    obtain ⟨hknown, hgrants⟩ := (mem_getAllowedModelCategoriesForUser hcatalog huser).mp htier
    exact ⟨m, hkey, hknown, hgrants⟩
  · rintro ⟨m, hkey, hknown, hgrants⟩
    exact ⟨m, mem_iterRegistryModels.mpr ⟨Dict.mem_values (Dict.get?_eq_some_iff.mp hkey),
      (mem_getAllowedModelCategoriesForUser hcatalog huser).mpr ⟨hknown, hgrants⟩⟩, hkey⟩

end Asked

/-- One model, as the server lists it. -/
def listedModels : Dict Text (Dict Text Json) :=
  .ofPairs [("m".toList, .ofPairs [("name".toList, .str "m".toList),
    ("description".toList, .str "small".toList)])]

/-- A user whose group may use models for coding. -/
def codingUser : Identity := { annaIdentity with groups := ["devs".toList] }

theorem described_listedModels : Described listedModels := by
  intro e he
  obtain rfl := List.mem_singleton.mp he
  exact ⟨⟨_, rfl⟩, _, rfl⟩

theorem chosen_of_policies_coding : ∃ policyCatalog registryCatalog allowed,
    Chosen plainBuiltins lower codingSources [] codingUser listedModels allowed ∧
      ∀ key, key ∈ allowed.keys ↔ Accessible codingSources lower listedModels policyCatalog
        registryCatalog codingUser.groups key :=
  ⟨_, _, chosen_of_policies rfl (by decide) rfl (by decide) rfl described_listedModels⟩

example : resolveRuntimeModel plainBuiltins lower codingSources [] codingUser listedModels
    (some " m ".toList) false = .ok ⟨"m".toList, "small".toList, "m".toList⟩ := by rfl

end Auth

end AiAgent
