import RatifyOs.Data.Keyed
import RatifyOs.Data.Utf16
import RatifyOs.Execution.Control

/-! One text for a policy, whatever the order in which the keys of its object stand, and
another text for every other policy. -/
namespace RatifyOs.Execution
open Data Data.Json

theorem codeUnits_eq (s : String) : codeUnits s = (Utf16.ofString s).map Fin.val := by
  unfold codeUnits Utf16.ofString
  rw [List.map_flatMap]
  refine List.flatMap_congr fun c _ => ?_
  have bound : c.toNat < 1114112 := by
    have valid := c.valid
    rcases valid with low | ⟨_,high⟩
    · exact lt_trans low (by norm_num)
    · exact high
  unfold Utf16.units
  split
  · rename_i small
    exact congrArg (fun a => [a]) (Nat.mod_eq_of_lt small).symm
  · rename_i large
    have lead : 55296 + (c.toNat - 65536) / 1024 < 65536 := by omega
    have trail : 56320 + (c.toNat - 65536) % 1024 < 65536 := by omega
    exact congrArg₂ (fun a b => [a,b]) (Nat.mod_eq_of_lt lead).symm (Nat.mod_eq_of_lt trail).symm

theorem codeUnits_injective {s t : String} (same : codeUnits s = codeUnits t) : s = t := by
  rw [codeUnits_eq,codeUnits_eq] at same
  exact Utf16.ofString_injective (List.map_injective_iff.mpr Fin.val_injective same)

/-- With no key twice, only one order is left. -/
theorem sortKeys_eq_of_perm {α : Type} {fields fields' : List (String × α)} (perm : fields.Perm fields')
    (distinct : (fields.map (·.1)).Nodup) : sortKeys fields = sortKeys fields' := by
  have total : Std.Total fun a b : String × α => codeUnits a.1 ≤ codeUnits b.1 := ⟨fun a b => le_total _ _⟩
  have trans : IsTrans (String × α) fun a b => codeUnits a.1 ≤ codeUnits b.1 := ⟨fun a b c => le_trans⟩
  have swapped : (sortKeys fields).Perm (sortKeys fields') :=
    ((sortKeys_perm fields).trans perm).trans (sortKeys_perm fields').symm
  refine swapped.eq_of_pairwise ?_ (List.pairwise_insertionSort _ fields) (List.pairwise_insertionSort _ fields')
  intro a b there there' le le'
  have inside := (sortKeys_perm fields).mem_iff.mp there
  have inside' := perm.mem_iff.mpr ((sortKeys_perm fields').mem_iff.mp there')
  exact List.inj_on_of_nodup_map distinct inside inside' (codeUnits_injective (le_antisymm le le'))

theorem serialize_perm {fields fields' : List (String × Json)} (perm : fields.Perm fields')
    (distinct : (fields.map (·.1)).Nodup) : canonicalSerialize (.obj fields) = canonicalSerialize (.obj fields') := by
  have texts : (serializeFields fields).Perm (serializeFields fields') := by
    rw [serializeFields_eq,serializeFields_eq]
    exact perm.map _
  have keys : ((serializeFields fields).map (·.1)).Nodup := by
    rw [serializeFields_eq,List.map_map]
    exact distinct
  rw [canonicalSerialize,canonicalSerialize,sortKeys_eq_of_perm texts keys]

attribute [ext] PolicyAllow PolicyLimits PolicyMarket PolicyDocument

namespace PolicyDocument

/-- How `canonical` writes a bigint. -/
private def tag (n : ℤ) : Json := .obj [("$bigint",.str (toString n))]

def allowFields (p : PolicyDocument) : List (String × Json) := [
  ("chains",.arr (p.allow.chains.map tag)),("accounts",.strings p.allow.accounts),
  ("tokens",.strings p.allow.tokens),("routers",.strings p.allow.routers),("targets",.strings p.allow.targets),
  ("selectors",.strings p.allow.selectors),("recipients",.strings p.allow.recipients)]

def limitsFields (p : PolicyDocument) : List (String × Json) := [
  ("perTrade",tag p.limits.perTrade),("assetHourly",tag p.limits.assetHourly),
  ("assetDaily",tag p.limits.assetDaily),("strategyHourly",tag p.limits.strategyHourly),
  ("strategyDaily",tag p.limits.strategyDaily),("totalExposure",tag p.limits.totalExposure),
  ("assetExposure",tag p.limits.assetExposure),("concentrationBps",tag p.limits.concentrationBps),
  ("drawdown",tag p.limits.drawdown),("totalLoss",tag p.limits.totalLoss)]

def marketFields (p : PolicyDocument) : List (String × Json) := [
  ("maxQuoteAge",tag p.market.maxQuoteAge),("maxSlippageBps",tag p.market.maxSlippageBps),
  ("maxImpactBps",tag p.market.maxImpactBps),("maxGas",tag p.market.maxGas),
  ("maxFees",tag p.market.maxFees),("minLiquidity",tag p.market.minLiquidity),
  ("maxTaxBps",tag p.market.maxTaxBps),("allowProxy",.bool p.market.allowProxy),
  ("maxOracleAge",tag p.market.maxOracleAge),("requireSequencerUp",.bool p.market.requireSequencerUp)]

def fields (p : PolicyDocument) (allow limits market : List (String × Json)) : List (String × Json) := [
  ("version",.str p.version),("effectiveAt",tag p.effectiveAt),("expiresAt",tag p.expiresAt),
  ("allow",.obj allow),("limits",.obj limits),("market",.obj market),
  ("approvalClass",.str p.approvalClass),("deadManAfter",tag p.deadManAfter),
  ("globalKill",.bool p.globalKill),("strategyKills",.strings p.strategyKills)]

theorem json_eq (p : PolicyDocument) : p.json = .obj (p.fields p.allowFields p.limitsFields p.marketFields) := rfl

/-- An object that holds the policy, the keys of each record in some order. -/
def Written (p : PolicyDocument) (v : Json) : Prop :=
  ∃ all allow limits market, v = .obj all ∧ all.Perm (p.fields allow limits market) ∧ allow.Perm p.allowFields ∧
    limits.Perm p.limitsFields ∧ market.Perm p.marketFields

theorem distinct_fields (p : PolicyDocument) (allow limits market : List (String × Json)) :
    ((p.fields allow limits market).map (·.1)).Nodup := by
  have keys : ["version","effectiveAt","expiresAt","allow","limits","market","approvalClass","deadManAfter",
    "globalKill","strategyKills"].Nodup := by decide
  exact keys

theorem distinct_records (p : PolicyDocument) : (p.allowFields.map (·.1)).Nodup ∧ (p.limitsFields.map (·.1)).Nodup ∧
    (p.marketFields.map (·.1)).Nodup := by
  have allow : ["chains","accounts","tokens","routers","targets","selectors","recipients"].Nodup := by decide
  have limits : ["perTrade","assetHourly","assetDaily","strategyHourly","strategyDaily","totalExposure",
    "assetExposure","concentrationBps","drawdown","totalLoss"].Nodup := by decide
  have market : ["maxQuoteAge","maxSlippageBps","maxImpactBps","maxGas","maxFees","minLiquidity","maxTaxBps",
    "allowProxy","maxOracleAge","requireSequencerUp"].Nodup := by decide
  exact ⟨allow,limits,market⟩

/-- The text does not depend on the order of the keys. -/
theorem serialize_written {p : PolicyDocument} {v : Json} (written : p.Written v) :
    canonicalSerialize v = canonicalSerialize p.json := by
  obtain ⟨all,allow,limits,market,rfl,whole,first,second,third⟩ := written
  obtain ⟨keys,keys',keys''⟩ := p.distinct_records
  have distinct := ((whole.map (·.1)).nodup_iff).mpr (p.distinct_fields allow limits market)
  rw [serialize_perm whole distinct,json_eq]
  have one := serialize_perm first (((first.map (·.1)).nodup_iff).mpr keys)
  have two := serialize_perm second (((second.map (·.1)).nodup_iff).mpr keys')
  have three := serialize_perm third (((third.map (·.1)).nodup_iff).mpr keys'')
  rw [canonicalSerialize,canonicalSerialize]
  simp only [fields,serializeFields,one,two,three]

/-- Records with the same keys in the same places are equal once they are equal in order. -/
theorem orderedFields_eq {all all' : List (String × Json)} (same : ordered (.obj all) = ordered (.obj all'))
    (keys : all.map (·.1) = all'.map (·.1)) (distinct : (all.map (·.1)).Nodup) : orderedFields all = orderedFields all' := by
  rw [ordered,ordered,Json.obj.injEq] at same
  have perm : (orderedFields all).Perm (orderedFields all') :=
    (sortKeys_perm _).symm.trans (same ▸ sortKeys_perm (orderedFields all'))
  apply Keyed.eq_of_perm _ perm
  · rwa [orderedFields_keys]
  · rw [orderedFields_keys,orderedFields_keys,keys]

private theorem ordered_tag (n : ℤ) : ordered (tag n) = tag n := rfl

private theorem tag_injective {m n : ℤ} (same : tag m = tag n) : m = n := by
  simp only [tag,Json.obj.injEq,List.cons.injEq,Prod.mk.injEq,true_and,and_true,Json.str.injEq] at same
  exact number_injective (congrArg String.toList same)

private theorem orderedItems_eq (items : List Json) : orderedItems items = items.map ordered := by
  induction items with
  | nil => rfl
  | cons v items ih => rw [orderedItems,ih,List.map_cons]

private theorem ordered_tags {ms ns : List ℤ} (same : ordered (.arr (ms.map tag)) = ordered (.arr (ns.map tag))) :
    ms = ns := by
  rw [ordered,ordered,orderedItems_eq,orderedItems_eq,Json.arr.injEq,List.map_map,List.map_map] at same
  exact List.map_injective_iff.mpr (fun m n one => tag_injective one) same

private theorem ordered_strings {xs ys : List String} (same : ordered (.strings xs) = ordered (.strings ys)) : xs = ys := by
  rw [Json.strings,Json.strings,ordered,ordered,orderedItems_eq,orderedItems_eq,Json.arr.injEq,List.map_map,List.map_map] at same
  exact List.map_injective_iff.mpr (fun x y one => Json.str.inj one) same

private theorem distinct_tag (n : ℤ) : Distinct (tag n) := by simp [tag,Distinct,DistinctFields]

private theorem distinctItems_iff (items : List Json) : DistinctItems items ↔ ∀ v ∈ items, Distinct v := by
  induction items with
  | nil => simp [DistinctItems]
  | cons v items ih => rw [DistinctItems,ih,List.forall_mem_cons]

private theorem distinct_tags (ns : List ℤ) : Distinct (.arr (ns.map tag)) := by
  rw [Distinct,distinctItems_iff]
  intro v inside
  obtain ⟨n,_,rfl⟩ := List.mem_map.mp inside
  exact distinct_tag n

private theorem distinct_strings (xs : List String) : Distinct (.strings xs) := by
  rw [Json.strings,Distinct,distinctItems_iff]
  intro v inside
  obtain ⟨x,_,rfl⟩ := List.mem_map.mp inside
  trivial

theorem distinct_json (p : PolicyDocument) : Distinct p.json := by
  obtain ⟨keys,keys',keys''⟩ := p.distinct_records
  rw [json_eq]
  refine ⟨p.distinct_fields _ _ _,?_⟩
  have allow : Distinct (.obj p.allowFields) := by
    refine ⟨keys,?_⟩
    simp only [allowFields,DistinctFields,distinct_tags,distinct_strings,and_self]
  have limits : Distinct (.obj p.limitsFields) := by
    refine ⟨keys',?_⟩
    simp only [limitsFields,DistinctFields,distinct_tag,and_self]
  have market : Distinct (.obj p.marketFields) := by
    refine ⟨keys'',?_⟩
    simp only [marketFields,DistinctFields,Distinct,distinct_tag,and_self]
  simp only [fields,DistinctFields,Distinct,distinct_tag,distinct_strings,and_self,and_true,true_and]
  exact ⟨allow,limits,market⟩

private theorem allow_inj {p q : PolicyDocument} (same : ordered (.obj p.allowFields) = ordered (.obj q.allowFields)) :
    p.allow = q.allow := by
  have one := orderedFields_eq same rfl p.distinct_records.1
  simp only [allowFields,orderedFields,List.cons.injEq,Prod.mk.injEq,true_and,and_true] at one
  obtain ⟨chains,accounts,tokens,routers,targets,selectors,recipients⟩ := one
  exact PolicyAllow.ext (ordered_tags chains) (ordered_strings accounts) (ordered_strings tokens)
    (ordered_strings routers) (ordered_strings targets) (ordered_strings selectors) (ordered_strings recipients)

private theorem limits_inj {p q : PolicyDocument} (same : ordered (.obj p.limitsFields) = ordered (.obj q.limitsFields)) :
    p.limits = q.limits := by
  have one := orderedFields_eq same rfl p.distinct_records.2.1
  simp only [limitsFields,orderedFields,ordered_tag,List.cons.injEq,Prod.mk.injEq,true_and,and_true] at one
  obtain ⟨a,b,c,d,e,f,g,h,i,j⟩ := one
  exact PolicyLimits.ext (tag_injective a) (tag_injective b) (tag_injective c) (tag_injective d) (tag_injective e)
    (tag_injective f) (tag_injective g) (tag_injective h) (tag_injective i) (tag_injective j)

private theorem market_inj {p q : PolicyDocument} (same : ordered (.obj p.marketFields) = ordered (.obj q.marketFields)) :
    p.market = q.market := by
  have one := orderedFields_eq same rfl p.distinct_records.2.2
  simp only [marketFields,orderedFields,ordered_tag,ordered,List.cons.injEq,Prod.mk.injEq,true_and,and_true] at one
  obtain ⟨a,b,c,d,e,f,g,h,i,j⟩ := one
  exact PolicyMarket.ext (tag_injective a) (tag_injective b) (tag_injective c) (tag_injective d) (tag_injective e)
    (tag_injective f) (tag_injective g) (Json.bool.inj h) (tag_injective i) (Json.bool.inj j)

theorem eq_of_serialize_eq {p q : PolicyDocument} (same : canonicalSerialize p.json = canonicalSerialize q.json) :
    p = q := by
  have arranged := ordered_of_serialize_eq p.distinct_json q.distinct_json same
  have one := orderedFields_eq arranged rfl (p.distinct_fields _ _ _)
  simp only [orderedFields,List.cons.injEq,Prod.mk.injEq,true_and,and_true] at one
  obtain ⟨version,effectiveAt,expiresAt,allow,limits,market,approvalClass,deadManAfter,globalKill,strategyKills⟩ := one
  exact PolicyDocument.ext (Json.str.inj version) (tag_injective effectiveAt) (tag_injective expiresAt)
    (allow_inj allow) (limits_inj limits) (market_inj market) (Json.str.inj approvalClass) (tag_injective deadManAfter)
    (Json.bool.inj globalKill) (ordered_strings strategyKills)

end PolicyDocument

/-- A policy document as an object that `validatePolicy` accepts. -/
structure AcceptedPolicy where
  document : PolicyDocument
  object : Json
  written : document.Written object
  valid : document.validatePolicy

namespace AcceptedPolicy

def canonicalPolicy (a : AcceptedPolicy) : Text := "TRADING_POLICY_V1:".toList ++ canonicalSerialize a.object

def policyHash (sha256 : Text → String) (a : AcceptedPolicy) : String := sha256 a.canonicalPolicy

theorem canonicalPolicy_eq (a : AcceptedPolicy) : a.canonicalPolicy = a.document.canonicalPolicy :=
  congrArg ("TRADING_POLICY_V1:".toList ++ ·) (PolicyDocument.serialize_written a.written)

/-- Two accepted policies have one text exactly when they have the same fields with equal
values, and then exactly when an injective hash of their texts is the same. -/
theorem canonicalPolicy_injective (a b : AcceptedPolicy) :
    (a.canonicalPolicy = b.canonicalPolicy ↔ a.document = b.document) ∧
    ∀ sha256 : Text → String, Function.Injective sha256 →
      (a.policyHash sha256 = b.policyHash sha256 ↔ a.document = b.document) := by
  have texts : a.canonicalPolicy = b.canonicalPolicy ↔ a.document = b.document := by
    rw [canonicalPolicy_eq,canonicalPolicy_eq]
    constructor
    · intro same
      exact PolicyDocument.eq_of_serialize_eq (List.append_cancel_left same)
    · intro same
      rw [same]
  refine ⟨texts,fun sha256 injective => ?_⟩
  rw [policyHash,policyHash,injective.eq_iff,texts]

end AcceptedPolicy

end RatifyOs.Execution
