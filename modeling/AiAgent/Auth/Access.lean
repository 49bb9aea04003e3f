import AiAgent.Auth.Directory
import AiAgent.Store.Dict
import AiAgent.Text.Json
import Mathlib.Data.List.Lex
import Mathlib.Data.String.Basic

/-!
# Access to models

Which models a user may use is decided by two catalogs. The policy catalog is read from folders, one
for each category, and says which categories there are; the registry is read from a file and puts
every model in a category, its tier. A user is given the categories that are general or for which
one of the user's groups is configured, and of the live models those whose tier is among them.

The validation user is given the models that are marked for validation instead, and where the
registry is empty those that the policies name are given. Apart from these two the groups decide
alone (`AiAgent.Auth.decidedByGroups_getAllowedModelsForUser`): a model is allowed precisely if it
is live, in the registry, and of a tier that the catalog has and the user is given.
-/

namespace AiAgent

namespace Auth

open Text

/-! ### Reading JSON -/

/-- What `bool` and `str` make of a value of JSON. -/
structure Builtins where
  bool : Json → Bool
  str : Json → Text
  bool_null : bool .null = false
  bool_bool : ∀ b, bool (.bool b) = b
  bool_str : ∀ s, bool (.str s) = decide (s ≠ [])
  str_str : ∀ s, str (.str s) = s

/-- `payload.get(key)`, of an object. What stands last under the key counts. -/
def getMember (payload : Json) (key : Text) : Json :=
  match payload with
  | .obj members => ((members.reverse.find? fun e => e.1 = key).map Prod.snd).getD .null
  | _ => .null

/-- `value is False`. -/
def isFalse : Json → Bool
  | .bool b => !b
  | _ => false

/-- The value of a number without point and exponent. -/
def intOfNumber (n : Json.Number) : Option ℤ :=
  if n.literal.all fun c => c.isDigit || c = '-' then
    let digits := n.literal.filter Char.isDigit
    let value : ℤ := digits.foldl (fun value c => 10 * value + (c.toNat - '0'.toNat : ℕ)) 0
    some (if n.literal.head? = some '-' then -value else value)
  else none

/-- The errors that reading a catalog lets through. -/
inductive CatalogError where
  /-- `AttributeError`: the payload has no `get`. -/
  | attributeError
  /-- `TypeError`: the models cannot be run through. -/
  | typeError
  deriving DecidableEq

/-! ### The catalogs -/

def generalCategory : Text := "general".toList

/-- `MODEL_POLICY_CATEGORY_ORDER`, and its length where a category is not there. -/
def categoryOrder (category : Text) : ℕ :=
  if category = generalCategory then 0
  else if category = "coding".toList then 1
  else if category = "admin".toList then 2
  else 3

/-- A model of a policy. -/
structure PolicyModel where
  modelKey : Text
  displayName : Text
  requiresGpu : Bool
  experimental : Bool
  category : Text

/-- A category of the policy catalog. -/
structure CategoryPolicy where
  category : Text
  displayName : Text
  models : Dict Text PolicyModel

/-- A folder of the policies, with what its `policy.json` holds if that can be read. -/
structure PolicyFolder where
  name : Text
  policy : Option Json

/-- A model of the registry, with all that is kept of it. -/
structure RegistryEntry extends RegistryModel where
  modelKey : Text
  displayName : Text
  requiresGpu : Bool
  experimental : Bool
  sortOrder : ℤ

/-- The registry. Each model stands under its own key, which is not blank. -/
structure RegistryCatalog where
  models : Dict Text RegistryEntry
  keyed : ∀ e ∈ models.entries, e.2.modelKey = e.1 ∧ strip e.1 = e.1 ∧ e.1 ≠ []

section Catalogs

variable (builtins : Builtins) (lowerCase : Text → Text)

/-- `str(value or "")`. -/
def textOf (value : Json) : Text := if builtins.bool value then builtins.str value else []

/-- `_normalize_policy_category_name`. -/
def normalizePolicyCategoryName (value : Json) : Text := lowerCase (strip (textOf builtins value))

/-- `_normalize_registry_policy_tier`. -/
def normalizeRegistryPolicyTier (value : Json) : Text :=
  let normalized := normalizePolicyCategoryName builtins lowerCase value
  if categoryOrder normalized < 3 then normalized else []

/-- `str(value or key).strip() or key`. -/
def displayNameOf (value : Json) (key : Text) : Text :=
  orText (some (strip (orText (some (textOf builtins value)) key))) key

/-- An entry of the models of a policy. -/
def policyModel (category : Text) (modelEntry : Json) : Option (Text × PolicyModel) :=
  match modelEntry with
  | .obj _ =>
    if isFalse (getMember modelEntry "enabled".toList) then none
    else
      let modelKey := strip (textOf builtins (getMember modelEntry "model_key".toList))
      if modelKey = [] then none
      else some (modelKey, {
        modelKey := modelKey
        displayName := displayNameOf builtins (getMember modelEntry "display_name".toList) modelKey
        requiresGpu := builtins.bool (getMember modelEntry "requires_gpu".toList)
        experimental := builtins.bool (getMember modelEntry "experimental".toList)
        category := category })
  | _ => none

/-- What `for model_entry in …` runs through: the items of a list, and of an object or a text what
is no object. -/
def modelEntries : Json → Except CatalogError (List Json)
  | .arr items => .ok items
  | .obj members => .ok (members.map fun e => .str e.1)
  | .str s => .ok (s.map fun c => .str [c])
  | _ => .error .typeError

/-- What a folder adds to the policy catalog. -/
def categoryPolicy (folder : PolicyFolder) : Except CatalogError (Option (Text × CategoryPolicy)) :=
  match folder.policy with
  | some (.obj members) => do
    let payload : Json := .obj members
    let named := getMember payload "category".toList
    let category := normalizePolicyCategoryName builtins lowerCase
      (if builtins.bool named then named else .str folder.name)
    if category = [] ∨ category ≠ lowerCase folder.name then return none
    if isFalse (getMember payload "enabled".toList) then return none
    -- A policy without models has none.
    let entries ← if "models".toList ∈ members.map Prod.fst then
      modelEntries (getMember payload "models".toList) else pure []
    let models := Dict.ofPairs (entries.filterMap (policyModel builtins category))
    if models.entries = [] then return none
    return some (category, {
      category := category
      displayName := displayNameOf builtins (getMember payload "display_name".toList) folder.name
      models := models })
  | _ => return none

/-- `_policy_category_sort_key`, as an order. -/
def PolicyFolder.Before (a b : PolicyFolder) : Prop :=
  categoryOrder (lowerCase a.name) < categoryOrder (lowerCase b.name) ∨
    (categoryOrder (lowerCase a.name) = categoryOrder (lowerCase b.name) ∧
      lowerCase a.name ≤ lowerCase b.name)

instance : DecidableRel (PolicyFolder.Before lowerCase) :=
  fun _ _ => inferInstanceAs (Decidable (_ ∨ _))

/-- `load_model_policy_catalog`, of a directory that is there or not. -/
def loadModelPolicyCatalog (root : Option (List PolicyFolder)) :
    Except CatalogError (Dict Text CategoryPolicy) :=
  match root with
  | none => return .empty
  | some folders => do
    let categories ← (folders.insertionSort (PolicyFolder.Before lowerCase)).mapM
      (categoryPolicy builtins lowerCase)
    return .ofPairs (categories.filterMap id)

/-- An entry of the models of the registry. -/
def registryModel (modelEntry : Json) : Option (Text × RegistryEntry) :=
  match modelEntry with
  | .obj _ =>
    let modelKey := strip (textOf builtins (getMember modelEntry "install_name".toList))
    if modelKey = [] then none
    else some (modelKey, {
      modelKey := modelKey
      displayName := displayNameOf builtins (getMember modelEntry "display_name".toList) modelKey
      category := normalizeRegistryPolicyTier builtins lowerCase
        (getMember modelEntry "policy_tier".toList)
      enabledForValidationUser := builtins.bool
        (getMember modelEntry "enabled_for_validation_user".toList)
      requiresGpu := builtins.bool (getMember modelEntry "gpu_required".toList)
      experimental := builtins.bool (getMember modelEntry "experimental".toList)
      sortOrder :=
        match getMember modelEntry "installer_order".toList with
        | .num n => (intOfNumber n).getD 3000
        | _ => 3000 })
  | _ => none

variable {builtins lowerCase} in
theorem keyed_registryModel {modelEntry : Json} {e : Text × RegistryEntry}
    (h : registryModel builtins lowerCase modelEntry = some e) :
    e.2.modelKey = e.1 ∧ strip e.1 = e.1 ∧ e.1 ≠ [] := by
  cases modelEntry with
  | obj members =>
    rw [registryModel] at h
    by_cases hblank : strip (textOf builtins (getMember (.obj members) "install_name".toList)) = []
    · rw [if_pos hblank] at h
      cases h
    · rw [if_neg hblank] at h
      obtain rfl := Option.some.inj h
      exact ⟨rfl, strip_of_tight (tight_strip _), hblank⟩
  | _ => cases h

/-- `load_model_registry_catalog`, of a file that can be read or not. -/
def loadModelRegistryCatalog (file : Option Json) : Except CatalogError RegistryCatalog :=
  let catalogOf (modelEntries : List Json) : RegistryCatalog :=
    { models := .ofPairs (modelEntries.filterMap (registryModel builtins lowerCase))
      keyed := fun _ he =>
        let ⟨_, _, hmodel⟩ := List.mem_filterMap.mp (Dict.mem_of_mem_ofPairs he)
        keyed_registryModel hmodel }
  match file with
  | none => return catalogOf []
  | some (.obj members) =>
    match getMember (.obj members) "models".toList with
    | .arr modelEntries => return catalogOf modelEntries
    | _ => return catalogOf []
  | some _ => throw .attributeError

end Catalogs

/-! ### The models of a user -/

/-- `_iter_registry_models` sorts by tier, place and key. -/
def RegistryEntry.Before (a b : RegistryEntry) : Prop :=
  categoryOrder a.category < categoryOrder b.category ∨
    (categoryOrder a.category = categoryOrder b.category ∧ (a.sortOrder < b.sortOrder ∨
      (a.sortOrder = b.sortOrder ∧ a.modelKey ≤ b.modelKey)))

instance : DecidableRel RegistryEntry.Before := fun _ _ => inferInstanceAs (Decidable (_ ∨ _))

/-- `_iter_registry_models`. -/
def iterRegistryModels (registryCatalog : RegistryCatalog) (categoryKeys : Option (List Text))
    (validationOnly : Bool) : List RegistryEntry :=
  (registryCatalog.models.values.filter fun modelEntry =>
    (categoryKeys.all fun categoryKeys => modelEntry.category ∈ categoryKeys) &&
      (!validationOnly || modelEntry.enabledForValidationUser)).insertionSort RegistryEntry.Before

/-- `_resolve_model_access_entry`. -/
def resolveModelAccessEntry (liveModel : Dict Text Json) (modelKey categoryKey : Text)
    (policyModel : Option PolicyModel) (registryModel : Option RegistryEntry) : Dict Text Json :=
  let displayName := orText (some (strip (orText (policyModel.map PolicyModel.displayName)
    (orText (registryModel.map RegistryEntry.displayName) modelKey)))) modelKey
  let category := orText (some categoryKey) (orText (policyModel.map PolicyModel.category)
    (orText (registryModel.map fun m => m.category) []))
  let requiresGpu := (policyModel.map PolicyModel.requiresGpu).getD
    ((registryModel.map RegistryEntry.requiresGpu).getD false)
  let experimental := (policyModel.map PolicyModel.experimental).getD
    ((registryModel.map RegistryEntry.experimental).getD false)
  ((((liveModel.setDefault "name".toList (.str displayName)).set "category".toList
    (.str category)).set "policy_display_name".toList (.str displayName)).set
      "requires_gpu".toList (.bool requiresGpu)).set "experimental".toList (.bool experimental)

/-- `parse_group_mapping`. -/
def parseGroupMapping (lowerCase : Text → Text) (value : Text) : List Text :=
  (distinctGroups lowerCase [] (value.splitOn ',')).map lowerCase

/-- What the access of a user is read from: the settings, the policy folders and the registry
file. -/
structure AccessSources where
  installTestUser : Text
  modelAccessCodingGroups : Text
  modelAccessAdminGroups : Text
  modelPolicyDir : Option (List PolicyFolder)
  modelRegistryPath : Option Json

section Access

variable (builtins : Builtins) (lowerCase : Text → Text) (sources : AccessSources)

/-- What the categories of a user are decided by. -/
def AccessSources.policy (policyCatalog : Dict Text CategoryPolicy)
    (registryCatalog : RegistryCatalog) : ModelPolicy where
  installTestUser := sources.installTestUser
  codingGroups := parseGroupMapping lowerCase sources.modelAccessCodingGroups
  adminGroups := parseGroupMapping lowerCase sources.modelAccessAdminGroups
  catalog := policyCatalog.keys
  registry := registryCatalog.models.values.map RegistryEntry.toRegistryModel

/-- A model of the registry, as a user gets it if it is live. -/
def registryModelAccess (models : Dict Text (Dict Text Json))
    (policyCatalog : Dict Text CategoryPolicy) (registryModel : RegistryEntry) :
    Option (Text × Dict Text Json) :=
  let modelKey := strip registryModel.modelKey
  if modelKey = [] then none
  else
    (models.get? modelKey).map fun liveModel =>
      let categoryKey := strip registryModel.category
      let modelPolicy := (policyCatalog.get? categoryKey).bind fun categoryPolicy =>
        categoryPolicy.models.get? modelKey
      (modelKey, resolveModelAccessEntry liveModel modelKey categoryKey modelPolicy
        (some registryModel))

/-- The models of the registry that are live, as a user gets them. -/
def registryAccess (models : Dict Text (Dict Text Json)) (policyCatalog : Dict Text CategoryPolicy)
    (registryModels : List RegistryEntry) : List (Text × Dict Text Json) :=
  registryModels.filterMap (registryModelAccess models policyCatalog)

/-- The models of the policies that are live, as a user gets them. -/
def policyAccess (models : Dict Text (Dict Text Json)) (policyCatalog : Dict Text CategoryPolicy)
    (allowedCategories : List Text) : List (Text × Dict Text Json) :=
  allowedCategories.flatMap fun categoryKey =>
    (((policyCatalog.get? categoryKey).map fun categoryPolicy =>
      categoryPolicy.models.entries).getD []).filterMap fun e =>
        (models.get? e.1).map fun liveModel =>
          (e.1, resolveModelAccessEntry liveModel e.1 categoryKey (some e.2) none)

/-- `get_allowed_models_for_user`. The models that are available are those that are passed, if there
are any, or else those that the server lists. -/
def getAllowedModelsForUser (listed : Dict Text (Dict Text Json)) (username : Text)
    (groups : List Text) (availableModels : Option (Dict Text (Dict Text Json))) :
    Except CatalogError (Dict Text (Dict Text Json)) := do
  let models := (availableModels.filter fun passed => passed.entries ≠ []).getD listed
  if models.entries = [] then return .empty
  let policyCatalog ← loadModelPolicyCatalog builtins lowerCase sources.modelPolicyDir
  if policyCatalog.entries = [] then return .empty
  let registryCatalog ← loadModelRegistryCatalog builtins lowerCase sources.modelRegistryPath
  let policy := sources.policy lowerCase policyCatalog registryCatalog
  if isValidationUser lowerCase policy username ∧ registryCatalog.models.entries ≠ [] then
    return .ofPairs (registryAccess models policyCatalog
      (iterRegistryModels registryCatalog none true))
  else
    let allowedCategories := getAllowedModelCategoriesForUser lowerCase policy username groups
    if allowedCategories = [] then return .empty
    if registryCatalog.models.entries ≠ [] then
      return .ofPairs (registryAccess models policyCatalog
        (iterRegistryModels registryCatalog (some allowedCategories) false))
    else
      return .ofPairs (policyAccess models policyCatalog allowedCategories)

end Access

/-! ### Groups decide -/

section Groups

variable {builtins : Builtins} {lowerCase : Text → Text} {sources : AccessSources}
  {username : Text} {groups : List Text} {listed : Dict Text (Dict Text Json)}
  {availableModels : Option (Dict Text (Dict Text Json))}

/-- The models that are live. -/
def liveModels (listed : Dict Text (Dict Text Json))
    (availableModels : Option (Dict Text (Dict Text Json))) : Dict Text (Dict Text Json) :=
  (availableModels.filter fun passed => passed.entries ≠ []).getD listed

/-- The groups that are configured for a tier. -/
def AccessSources.configuredGroups (sources : AccessSources) (lowerCase : Text → Text)
    (tier : Text) : List Text :=
  if tier = "coding".toList then parseGroupMapping lowerCase sources.modelAccessCodingGroups
  else if tier = "admin".toList then parseGroupMapping lowerCase sources.modelAccessAdminGroups
  else []

/-- The tier is general, or one of the groups is configured for it. -/
def AccessSources.Grants (sources : AccessSources) (lowerCase : Text → Text) (groups : List Text)
    (tier : Text) : Prop :=
  tier = generalCategory ∨
    ∃ g ∈ sources.configuredGroups lowerCase tier, g ∈ groups.map lowerCase

theorem mem_getAllowedModelCategoriesForUser {policyCatalog : Dict Text CategoryPolicy}
    {registryCatalog : RegistryCatalog} (hcatalog : policyCatalog.entries ≠ [])
    (huser : isValidationUser lowerCase (sources.policy lowerCase policyCatalog registryCatalog)
      username = false) {tier : Text} :
    tier ∈ getAllowedModelCategoriesForUser lowerCase
        (sources.policy lowerCase policyCatalog registryCatalog) username groups ↔
      tier ∈ policyCatalog.keys ∧ sources.Grants lowerCase groups tier := by
  have hkeys : (sources.policy lowerCase policyCatalog registryCatalog).catalog ≠ [] := by
    rintro hnone
    exact hcatalog (List.map_eq_nil_iff.mp hnone)
  rw [getAllowedModelCategoriesForUser, if_neg hkeys, huser, if_neg Bool.false_ne_true,
    List.mem_filter, decide_eq_true_eq, List.any_eq_true]
  simp only [decide_eq_true_eq]
  rfl

theorem mem_iterRegistryModels {registryCatalog : RegistryCatalog} {categoryKeys : List Text}
    {modelEntry : RegistryEntry} :
    modelEntry ∈ iterRegistryModels registryCatalog (some categoryKeys) false ↔
      modelEntry ∈ registryCatalog.models.values ∧ modelEntry.category ∈ categoryKeys := by
  rw [iterRegistryModels, List.mem_insertionSort, List.mem_filter]
  simp

/-- A model of the registry is got under its key, if that is live. -/
theorem exists_registryModelAccess_iff {models : Dict Text (Dict Text Json)}
    {policyCatalog : Dict Text CategoryPolicy} {registryCatalog : RegistryCatalog} {k key : Text}
    {m : RegistryEntry} (h : (k, m) ∈ registryCatalog.models.entries) :
    (∃ access, registryModelAccess models policyCatalog m = some (key, access)) ↔
      k = key ∧ key ∈ models.keys := by
  obtain ⟨hself, hstrip, hne⟩ := registryCatalog.keyed _ h
  dsimp only at hself hstrip hne
  rw [registryModelAccess, hself, hstrip, if_neg hne]
  constructor
  · rintro ⟨access, haccess⟩
    obtain ⟨liveModel, hlive, heq⟩ := Option.map_eq_some_iff.mp haccess
    obtain ⟨rfl, -⟩ := Prod.mk.inj heq
    exact ⟨rfl, Dict.mem_keys_of_get? hlive⟩
  · rintro ⟨rfl, hlive⟩
    obtain ⟨liveModel, hliveModel⟩ := Dict.exists_get?_of_mem_keys hlive
    rw [hliveModel]
    exact ⟨_, rfl⟩

/-- The categories of users for whom the same groups are configured. -/
theorem getAllowedModelCategoriesForUser_congr {policyCatalog : Dict Text CategoryPolicy}
    {registryCatalog : RegistryCatalog} {username' : Text} {groups' : List Text}
    (huser : isValidationUser lowerCase (sources.policy lowerCase policyCatalog registryCatalog)
      username = false)
    (huser' : isValidationUser lowerCase (sources.policy lowerCase policyCatalog registryCatalog)
      username' = false)
    (hsame : ∀ tier, ∀ g ∈ sources.configuredGroups lowerCase tier,
      g ∈ groups.map lowerCase ↔ g ∈ groups'.map lowerCase) :
    getAllowedModelCategoriesForUser lowerCase
        (sources.policy lowerCase policyCatalog registryCatalog) username groups =
      getAllowedModelCategoriesForUser lowerCase
        (sources.policy lowerCase policyCatalog registryCatalog) username' groups' := by
  rw [getAllowedModelCategoriesForUser, getAllowedModelCategoriesForUser, huser, huser']
  refine if_congr Iff.rfl rfl ?_
  rw [if_neg Bool.false_ne_true, if_neg Bool.false_ne_true]
  refine List.filter_congr fun tier _ => ?_
  rw [decide_eq_decide, List.any_eq_true, List.any_eq_true]
  simp only [decide_eq_true_eq]
  exact or_congr_right (exists_congr fun g => and_congr_right fun hg => hsame tier g hg)

/-- **What is got of models of the registry**: those that are live. -/
theorem mem_keys_registryAccess {models : Dict Text (Dict Text Json)}
    {policyCatalog : Dict Text CategoryPolicy} {registryCatalog : RegistryCatalog}
    {registryModels : List RegistryEntry}
    (hmodels : ∀ m ∈ registryModels, m ∈ registryCatalog.models.values) {key : Text} :
    key ∈ (Dict.ofPairs (registryAccess models policyCatalog registryModels)).keys ↔
      key ∈ models.keys ∧ ∃ m ∈ registryModels, registryCatalog.models.get? key = some m := by
  rw [Dict.mem_keys_ofPairs]
  constructor
  · intro hkey
    obtain ⟨⟨key, access⟩, he, rfl⟩ := List.mem_map.mp hkey
    obtain ⟨m, hm, haccess⟩ := List.mem_filterMap.mp he
    obtain ⟨k, hk⟩ := Dict.exists_of_mem_values (hmodels m hm)
    obtain ⟨rfl, hlive⟩ := (exists_registryModelAccess_iff hk).mp ⟨access, haccess⟩
    exact ⟨hlive, m, hm, Dict.get?_eq_some_iff.mpr hk⟩
  · rintro ⟨hlive, m, hm, hregistry⟩
    obtain ⟨access, haccess⟩ : ∃ access,
        registryModelAccess models policyCatalog m = some (key, access) :=
      (exists_registryModelAccess_iff (Dict.get?_eq_some_iff.mp hregistry)).mpr ⟨rfl, hlive⟩
    exact List.mem_map.mpr ⟨(key, access), List.mem_filterMap.mpr ⟨m, hm, haccess⟩, rfl⟩

/-- Where no model is live, none is got. -/
theorem registryAccess_of_empty {models : Dict Text (Dict Text Json)}
    {policyCatalog : Dict Text CategoryPolicy} (h : models.entries = [])
    {registryModels : List RegistryEntry} :
    registryAccess models policyCatalog registryModels = [] := by
  rw [registryAccess, List.filterMap_eq_nil_iff]
  rintro m -
  have hnone : models.get? (strip m.modelKey) = none := by
    rw [Dict.get?, h]
    rfl
  rw [registryModelAccess, hnone]
  exact ite_self _

/-- A model that the user may use: it is live, in the registry, and of a tier that the catalog has
and the groups grant. -/
def Accessible (sources : AccessSources) (lowerCase : Text → Text)
    (models : Dict Text (Dict Text Json)) (policyCatalog : Dict Text CategoryPolicy)
    (registryCatalog : RegistryCatalog) (groups : List Text) (key : Text) : Prop :=
  key ∈ models.keys ∧ ∃ m, registryCatalog.models.get? key = some m ∧
    m.category ∈ policyCatalog.keys ∧ sources.Grants lowerCase groups m.category

theorem ok_bind {ε α β : Type} (a : α) (f : α → Except ε β) : (Except.ok a >>= f) = f a := rfl

/-- What a user gets who is not the validation user. -/
theorem getAllowedModelsForUser_eq {policyCatalog : Dict Text CategoryPolicy}
    {registryCatalog : RegistryCatalog}
    (hpolicies : loadModelPolicyCatalog builtins lowerCase sources.modelPolicyDir =
      .ok policyCatalog) (hcatalog : policyCatalog.entries ≠ [])
    (hfile : loadModelRegistryCatalog builtins lowerCase sources.modelRegistryPath =
      .ok registryCatalog) (hregistry : registryCatalog.models.entries ≠ [])
    (huser : isValidationUser lowerCase (sources.policy lowerCase policyCatalog registryCatalog)
      username = false) :
    getAllowedModelsForUser builtins lowerCase sources listed username groups availableModels =
      .ok (.ofPairs (registryAccess (liveModels listed availableModels) policyCatalog
        (iterRegistryModels registryCatalog (some (getAllowedModelCategoriesForUser lowerCase
          (sources.policy lowerCase policyCatalog registryCatalog) username groups)) false))) := by
  by_cases hlive : (liveModels listed availableModels).entries = []
  · have hnone : registryAccess (liveModels listed availableModels) policyCatalog
        (iterRegistryModels registryCatalog (some (getAllowedModelCategoriesForUser lowerCase
          (sources.policy lowerCase policyCatalog registryCatalog) username groups)) false) = [] :=
      registryAccess_of_empty hlive
    rw [hnone]
    rw [liveModels] at hlive
    simp only [getAllowedModelsForUser, hlive]
    rfl
  · rw [liveModels] at hlive
    simp only [getAllowedModelsForUser, hpolicies, hfile, ok_bind, if_neg hlive, if_neg hcatalog,
      huser, Bool.false_eq_true, false_and, if_false, if_pos hregistry]
    by_cases hcategories : getAllowedModelCategoriesForUser lowerCase
        (sources.policy lowerCase policyCatalog registryCatalog) username groups = []
    · -- Of no categories there are no models.
      have hnone : iterRegistryModels registryCatalog (some []) false = [] := by
        rw [List.eq_nil_iff_forall_not_mem]
        intro m hm
        exact List.not_mem_nil (mem_iterRegistryModels.mp hm).2
      rw [if_pos hcategories, hcategories, hnone]
      rfl
    · rw [if_neg hcategories]
      rfl

/-- **Groups decide** which models a user may use who is not the validation user. Those allowed are
those accessible; users for whom the same groups are configured are allowed the same, and a user of
more groups is allowed no less. -/
structure DecidedByGroups (builtins : Builtins) (lowerCase : Text → Text) (sources : AccessSources)
    (listed : Dict Text (Dict Text Json)) (availableModels : Option (Dict Text (Dict Text Json)))
    (policyCatalog : Dict Text CategoryPolicy) (registryCatalog : RegistryCatalog) : Prop where
  allowed : ∀ username groups,
    isValidationUser lowerCase (sources.policy lowerCase policyCatalog registryCatalog) username =
      false →
    ∃ allowedModels, getAllowedModelsForUser builtins lowerCase sources listed username groups
        availableModels = .ok allowedModels ∧
      ∀ key, key ∈ allowedModels.keys ↔ Accessible sources lowerCase
        (liveModels listed availableModels) policyCatalog registryCatalog groups key
  same : ∀ username username' groups groups',
    isValidationUser lowerCase (sources.policy lowerCase policyCatalog registryCatalog) username =
      false →
    isValidationUser lowerCase (sources.policy lowerCase policyCatalog registryCatalog) username' =
      false →
    (∀ tier, ∀ g ∈ sources.configuredGroups lowerCase tier,
      g ∈ groups.map lowerCase ↔ g ∈ groups'.map lowerCase) →
    getAllowedModelsForUser builtins lowerCase sources listed username groups availableModels =
      getAllowedModelsForUser builtins lowerCase sources listed username' groups' availableModels
  grows : ∀ username groups groups', groups ⊆ groups' →
    isValidationUser lowerCase (sources.policy lowerCase policyCatalog registryCatalog) username =
      false →
    ∃ allowedModels allowedModels',
      getAllowedModelsForUser builtins lowerCase sources listed username groups availableModels =
        .ok allowedModels ∧
      getAllowedModelsForUser builtins lowerCase sources listed username groups' availableModels =
        .ok allowedModels' ∧ allowedModels.keys ⊆ allowedModels'.keys

/-- More groups grant no less. -/
theorem AccessSources.Grants.mono {groups' : List Text} {tier : Text}
    (h : sources.Grants lowerCase groups tier) (hgroups : groups ⊆ groups') :
    sources.Grants lowerCase groups' tier :=
  h.imp id fun ⟨g, hconfigured, hg⟩ => ⟨g, hconfigured, List.map_subset lowerCase hgroups hg⟩

/-- **Access to models is decided by groups.** -/
theorem decidedByGroups_getAllowedModelsForUser {policyCatalog : Dict Text CategoryPolicy}
    {registryCatalog : RegistryCatalog}
    (hpolicies : loadModelPolicyCatalog builtins lowerCase sources.modelPolicyDir =
      .ok policyCatalog) (hcatalog : policyCatalog.entries ≠ [])
    (hfile : loadModelRegistryCatalog builtins lowerCase sources.modelRegistryPath =
      .ok registryCatalog) (hregistry : registryCatalog.models.entries ≠ [])
    (listed : Dict Text (Dict Text Json))
    (availableModels : Option (Dict Text (Dict Text Json))) :
    DecidedByGroups builtins lowerCase sources listed availableModels policyCatalog
      registryCatalog := by
  have hallowed : ∀ username groups,
      isValidationUser lowerCase (sources.policy lowerCase policyCatalog registryCatalog) username =
        false →
      ∃ allowedModels, getAllowedModelsForUser builtins lowerCase sources listed username groups
          availableModels = .ok allowedModels ∧
        ∀ key, key ∈ allowedModels.keys ↔ Accessible sources lowerCase
          (liveModels listed availableModels) policyCatalog registryCatalog groups key := by
    intro username groups huser
    refine ⟨_, getAllowedModelsForUser_eq hpolicies hcatalog hfile hregistry huser, fun key => ?_⟩
    rw [mem_keys_registryAccess fun m hm => (mem_iterRegistryModels.mp hm).1]
    refine and_congr_right fun _ => ⟨?_, ?_⟩
    · rintro ⟨m, hm, hkey⟩
      obtain ⟨-, htier⟩ := mem_iterRegistryModels.mp hm
      exact ⟨m, hkey, (mem_getAllowedModelCategoriesForUser hcatalog huser).mp htier⟩
    · rintro ⟨m, hkey, htier⟩
      have hm := Dict.mem_values (Dict.get?_eq_some_iff.mp hkey)
      exact ⟨m, mem_iterRegistryModels.mpr
        ⟨hm, (mem_getAllowedModelCategoriesForUser hcatalog huser).mpr htier⟩, hkey⟩
  refine ⟨hallowed, fun username username' groups groups' huser huser' hsame => ?_,
    fun username groups groups' hgroups huser => ?_⟩
  · rw [getAllowedModelsForUser_eq hpolicies hcatalog hfile hregistry huser,
      getAllowedModelsForUser_eq hpolicies hcatalog hfile hregistry huser']
    rw [getAllowedModelCategoriesForUser_congr huser huser' hsame]
  · obtain ⟨allowedModels, hget, hkeys⟩ := hallowed username groups huser
    obtain ⟨allowedModels', hget', hkeys'⟩ := hallowed username groups' huser
    refine ⟨allowedModels, allowedModels', hget, hget', fun key hkey => ?_⟩
    obtain ⟨hlive, m, hm, htier, hgrants⟩ := (hkeys key).mp hkey
    exact (hkeys' key).mpr ⟨hlive, m, hm, htier, hgrants.mono hgroups⟩

end Groups

/-- What `bool` and `str` make of values without numbers, lists and objects in a text. -/
def plainBuiltins : Builtins where
  bool
    | .null => false
    | .bool b => b
    | .num _ => true
    | .str s => decide (s ≠ [])
    | .arr items => !items.isEmpty
    | .obj members => !members.isEmpty
  str
    | .str s => s
    | .bool b => if b then "True".toList else "False".toList
    | _ => "None".toList
  bool_null := rfl
  bool_bool := fun _ => rfl
  bool_str := fun _ => rfl
  str_str := fun _ => rfl

/-- A policy for coding and a model of that tier, which one group may use. -/
def codingSources : AccessSources where
  installTestUser := []
  modelAccessCodingGroups := "Devs".toList
  modelAccessAdminGroups := []
  modelPolicyDir := some [⟨"coding".toList, some (.obj [("models".toList,
    .arr [.obj [("model_key".toList, .str "m".toList)]])])⟩]
  modelRegistryPath := some (.obj [("models".toList, .arr [.obj [("install_name".toList,
    .str "m".toList), ("policy_tier".toList, .str "coding".toList)]])])

theorem decidedByGroups_codingSources : ∃ policyCatalog registryCatalog,
    DecidedByGroups plainBuiltins lower codingSources (.ofPairs [("m".toList, .empty)]) none
      policyCatalog registryCatalog :=
  ⟨_, _, decidedByGroups_getAllowedModelsForUser rfl (by decide) rfl (by decide) _ _⟩

end Auth

end AiAgent
