import Citus.Lib.JsonText
import Citus.Tenant.Stats
import Mathlib

/-!
# Tenant annotations

AnnotateQuery puts a comment naming the tenant of a query in front of the query text that the
coordinator sends, and AttributeQueryIfAnnotated, on the node that runs the query, reads the
comment back and hands the tenant to AttributeTask. The comment is a JSON object between /* and
*/. On the way in the tenant's text goes through EscapeCommentChars and escape_json; on the way
out through ExtractTopComment's search for the first */, jsonb_in and UnescapeCommentChars.

The results: ExtractTopComment finds exactly the object AnnotateQuery wrote, whatever bytes the
tenant's text holds, and the attribution read back is the colocation group and the tenant's
text cut by strncpy_s to its first MAX_TENANT_ATTRIBUTE_LENGTH - 1 bytes, a cut that can fall
inside a multibyte character.

## Implementation notes

- The partition key value is given by its text, the C string DatumToString returns.
- AttributeTask's probe of the monitor's hash table and, for a tenant not in it, its sampling
  draw are given by their outcome, trackedOrSampled. QueryStartClock is not modelled.
-/

namespace Citus.StatTenants

open JsonText

/-- INVALID_COLOCATION_ID. -/
def invalidColocationId : Int := 0

/-- MAX_TENANT_ATTRIBUTE_LENGTH. -/
def maxTenantAttributeLength : Nat := 100

/-- The values of citus.stat_tenants_track. -/
inductive StatTenantsTrack where
  | statTenantsTrackNone
  | statTenantsTrackAll
  deriving DecidableEq, Repr

/-- What AttributeTask leaves for the executor's end hook: AttributeToColocationGroupId,
AttributeToTenant and AttributeToCommandType. -/
structure Attribution where
  colocationGroupId : Int
  tenant : List UInt8
  commandType : CmdType
  deriving DecidableEq, Repr

/-- ATTRIBUTE_PREFIX, the text /*{"cId": -/
def attributePrefixBytes : List UInt8 := [47, 42, 123, 34, 99, 73, 100, 34, 58]

/-- The key cId. -/
def colocationIdKey : List UInt8 := [99, 73, 100]

/-- The key tId. -/
def tenantIdKey : List UInt8 := [116, 73, 100]

/-- ATTRIBUTE_STRING_FORMAT, /*{"cId":%d,"tId":%s}*/, filled in. -/
def attributeString (colocationId : Int) (escapedSourceName : List UInt8) : List UInt8 :=
  attributePrefixBytes ++ formatInt colocationId ++ [44, 34, 116, 73, 100, 34, 58] ++
    escapedSourceName ++ [125, 42, 47]

/-- ATTRIBUTE_STRING_FORMAT_WITHOUT_TID, /*{"cId":%d}*/, filled in. -/
def attributeStringWithoutTid (colocationId : Int) : List UInt8 :=
  attributePrefixBytes ++ formatInt colocationId ++ [125, 42, 47]

/-- EscapeCommentChars: a backslash before each '*' and '/'. -/
def escapeCommentChars : List UInt8 → List UInt8
  | [] => []
  | c :: rest =>
    if c = 42 ∨ c = 47 then 92 :: c :: escapeCommentChars rest
    else c :: escapeCommentChars rest

/-- UnescapeCommentChars: drops each backslash that stands before a '*' or a '/'. -/
def unescapeCommentChars : List UInt8 → List UInt8
  | [] => []
  | [c] => [c]
  | c :: d :: rest =>
    if c = 92 ∧ (d = 42 ∨ d = 47) then d :: unescapeCommentChars rest
    else c :: unescapeCommentChars (d :: rest)

/-- The text before the first */, or none when there is none. -/
def commentBody : List UInt8 → Option (List UInt8)
  | c :: d :: rest =>
    if c = 42 ∧ d = 47 then some [] else (commentBody (d :: rest)).map (c :: ·)
  | _ => none

/-- ExtractTopComment: the text of the comment that opens the input, up to the first */. -/
def extractTopComment (inputString : List UInt8) : Option (List UInt8) :=
  if inputString.length < 2 then none
  else
    match inputString with
    | 47 :: 42 :: commentStart => commentBody commentStart
    | _ => none

/-- AnnotateQuery: the query with the comment naming its tenant in front. The partition key
value is given by its text, none when the query has none. -/
def annotateQuery (statTenantsTrack : StatTenantsTrack)
    (isTenantSchemaColocationGroup : Int → Bool) (queryString : List UInt8)
    (partitionKeyValue : Option (List UInt8)) (colocationId : Int) : List UInt8 :=
  if statTenantsTrack = .statTenantsTrackNone ∨ colocationId = invalidColocationId then
    queryString
  else
    match partitionKeyValue with
    | none =>
      -- a schema-based tenant is named by its colocation group alone
      if isTenantSchemaColocationGroup colocationId then
        attributeStringWithoutTid colocationId ++ queryString
      else queryString
    | some partitionKeyValueString =>
      attributeString colocationId (escapeJson (escapeCommentChars partitionKeyValueString)) ++
        queryString

/-- strncpy_s(dest, dmax, src, slen) into a dest that src does not overlap: the bytes of src
up to its NUL, at most slen of them; none when dest runs out of room first ("not enough space
for src"), which leaves dest empty. -/
def strncpyS : Nat → List UInt8 → Nat → Option (List UInt8)
  | 0, _, _ => none
  | _ + 1, _, 0 => some []
  | _ + 1, [], _ + 1 => some []
  | dmax + 1, c :: src, slen + 1 =>
    if c = 0 then some [] else (strncpyS dmax src slen).map (c :: ·)

/-- AttributeTask: the attribution after a task of this tenant and colocation group.
trackedOrSampled is the outcome of the probe of the monitor's hash table or, for a tenant not
in it, of the sampling draw. -/
def attributeTask (statTenantsTrack : StatTenantsTrack) (trackedOrSampled : Bool)
    (isTenantSchemaColocationGroup : Int → Bool) (attribution : Attribution)
    (tenantId : Option (List UInt8)) (colocationId : Int) (commandType : CmdType) :
    Attribution :=
  if statTenantsTrack = .statTenantsTrackNone ∨ colocationId = invalidColocationId then
    attribution
  else if !trackedOrSampled then attribution
  else
    match tenantId with
    | none =>
      if isTenantSchemaColocationGroup colocationId then
        { colocationGroupId := colocationId, tenant := [], commandType := commandType }
      else attribution
    | some tenantId =>
      { colocationGroupId := colocationId
        tenant :=
          (strncpyS maxTenantAttributeLength tenantId (maxTenantAttributeLength - 1)).getD []
        commandType := commandType }

/-- ExtractFieldTextP: the field as text; none when the document lacks it or it is null. -/
def extractFieldTextP (jsonbDoc : List (List UInt8 × Value)) (fieldName : List UInt8) :
    Option (List UInt8) :=
  (field jsonbDoc fieldName).bind Value.text

/-- ExtractFieldInt32: the field as an int4, or defaultValue when the document lacks it. -/
def extractFieldInt32 (jsonbDoc : List (List UInt8 × Value)) (fieldName : List UInt8)
    (defaultValue : Int) : Except String Int :=
  match field jsonbDoc fieldName with
  | none => .ok defaultValue
  | some value => value.int4

/-- The part of AttributeQueryIfAnnotated after the comment is found: jsonb_in, the two
fields, and AttributeTask. -/
def attributeTopComment (statTenantsTrack : StatTenantsTrack) (trackedOrSampled : Bool)
    (isTenantSchemaColocationGroup : Int → Bool) (attribution : Attribution)
    (topComment : List UInt8) (commandType : CmdType) : Except String Attribution :=
  match parseDocument topComment with
  | none => .error "invalid input syntax for type json"
  | some jsonbDatum =>
    match extractFieldInt32 jsonbDatum colocationIdKey invalidColocationId with
    | .error message => .error message
    | .ok colocationId =>
      .ok (attributeTask statTenantsTrack trackedOrSampled isTenantSchemaColocationGroup
        attribution ((extractFieldTextP jsonbDatum tenantIdKey).map unescapeCommentChars)
        colocationId commandType)

/-- AttributeQueryIfAnnotated: the attribution after a query arrives, or the error jsonb raises
on its comment. Unless tracking is off, the colocation group is reset first. -/
def attributeQueryIfAnnotated (statTenantsTrack : StatTenantsTrack) (trackedOrSampled : Bool)
    (isTenantSchemaColocationGroup : Int → Bool) (attribution : Attribution)
    (queryString : Option (List UInt8)) (commandType : CmdType) : Except String Attribution :=
  if statTenantsTrack = .statTenantsTrackNone then .ok attribution
  else
    match queryString with
    | none => .ok { attribution with colocationGroupId := invalidColocationId }
    | some queryString =>
      -- strncmp against ATTRIBUTE_PREFIX over its length
      if queryString.take attributePrefixBytes.length = attributePrefixBytes then
        match extractTopComment queryString with
        | some topComment =>
          attributeTopComment statTenantsTrack trackedOrSampled isTenantSchemaColocationGroup
            { attribution with colocationGroupId := invalidColocationId } topComment commandType
        | none => .ok { attribution with colocationGroupId := invalidColocationId }
      else .ok { attribution with colocationGroupId := invalidColocationId }

/-! ## The comment characters -/

theorem escapeCommentChars_head {str rest : List UInt8} {d : UInt8}
    (h : escapeCommentChars str = d :: rest) : d ≠ 42 ∧ d ≠ 47 := by
  cases str with
  | nil => cases h
  | cons c str =>
    rw [escapeCommentChars] at h
    split at h
    · obtain ⟨rfl, -⟩ := List.cons.inj h
      decide
    · next hc =>
      obtain ⟨rfl, -⟩ := List.cons.inj h
      exact not_or.mp hc

theorem mem_escapeCommentChars {str : List UInt8} {b : UInt8}
    (hb : b ∈ escapeCommentChars str) : b ∈ str ∨ b = 92 := by
  induction str with
  | nil => cases hb
  | cons c str ih =>
    rw [escapeCommentChars] at hb
    split at hb
    · rcases List.mem_cons.mp hb with rfl | hb
      · exact .inr rfl
      · rcases List.mem_cons.mp hb with rfl | hb
        · exact .inl List.mem_cons_self
        · exact (ih hb).imp_left (List.mem_cons_of_mem c)
    · rcases List.mem_cons.mp hb with rfl | hb
      · exact .inl List.mem_cons_self
      · exact (ih hb).imp_left (List.mem_cons_of_mem c)

/-- UnescapeCommentChars undoes EscapeCommentChars, on backslashes already in the text too:
every '*' and '/' of the escaped text has a backslash of its own in front of it. -/
theorem unescapeCommentChars_escapeCommentChars (str : List UInt8) :
    unescapeCommentChars (escapeCommentChars str) = str := by
  induction str with
  | nil => rfl
  | cons c str ih =>
    by_cases hc : c = 42 ∨ c = 47
    · rw [escapeCommentChars, if_pos hc, unescapeCommentChars, if_pos ⟨rfl, hc⟩, ih]
    · rw [escapeCommentChars, if_neg hc]
      cases hescape : escapeCommentChars str with
      | nil =>
        rw [hescape] at ih
        rw [← ih]
        rfl
      | cons d rest =>
        have hd := escapeCommentChars_head hescape
        rw [unescapeCommentChars, if_neg (fun h => h.2.elim hd.1 hd.2), ← hescape, ih]

/-! ## The end of the comment -/

/-- Whether */ occurs in a text. -/
def hasCommentEnd : List UInt8 → Bool
  | c :: d :: rest => (c = 42 && d = 47) || hasCommentEnd (d :: rest)
  | _ => false

theorem hasCommentEnd_of_cons {c : UInt8} {l : List UInt8}
    (h : hasCommentEnd (c :: l) = false) : hasCommentEnd l = false := by
  cases l with
  | nil => rfl
  | cons d l =>
    simp only [hasCommentEnd, Bool.or_eq_false_iff] at h
    exact h.2

theorem hasCommentEnd_eq_false_of_not_mem {l : List UInt8} (h : 42 ∉ l) :
    hasCommentEnd l = false := by
  induction l with
  | nil => rfl
  | cons c l ih =>
    have hc : c ≠ 42 := fun hc => h (hc ▸ List.mem_cons_self)
    have htail := ih (fun hl => h (List.mem_cons_of_mem c hl))
    cases l with
    | nil => rfl
    | cons d l => simp [hasCommentEnd, hc, htail]

/-- Two texts without */ give none when joined, unless the second starts with '/'. -/
theorem hasCommentEnd_append {a b : List UInt8} (ha : hasCommentEnd a = false)
    (hb : hasCommentEnd b = false) (hhead : b.head? ≠ some 47) :
    hasCommentEnd (a ++ b) = false := by
  induction a with
  | nil => exact hb
  | cons c a ih =>
    have htail := ih (hasCommentEnd_of_cons ha)
    cases a with
    | nil =>
      cases b with
      | nil => rfl
      | cons d b =>
        have hd : d ≠ 47 := fun h => hhead (h ▸ rfl)
        simp [hasCommentEnd, hd, hb]
    | cons d a =>
      simp only [hasCommentEnd, Bool.or_eq_false_iff] at ha
      simp only [List.cons_append, hasCommentEnd, Bool.or_eq_false_iff] at htail ⊢
      exact ⟨ha.1, htail⟩

/-- The search for the first */ stops at the end of a body that holds none. -/
theorem commentBody_append {body : List UInt8} (hbody : hasCommentEnd body = false)
    (rest : List UInt8) : commentBody (body ++ 42 :: 47 :: rest) = some body := by
  induction body with
  | nil => rfl
  | cons c body ih =>
    obtain ⟨d, t, hdt, hd⟩ :
        ∃ d t, body ++ 42 :: 47 :: rest = d :: t ∧ ¬(c = 42 ∧ d = 47) := by
      cases body with
      | nil => exact ⟨42, 47 :: rest, rfl, fun h => absurd h.2 (by decide)⟩
      | cons d body =>
        simp only [hasCommentEnd, Bool.or_eq_false_iff, Bool.and_eq_false_iff,
          decide_eq_false_iff_not] at hbody
        exact ⟨d, _, rfl, fun h => hbody.1.elim (· h.1) (· h.2)⟩
    rw [List.cons_append, hdt, commentBody, if_neg hd, ← hdt, ih (hasCommentEnd_of_cons hbody)]
    rfl

/-- A comment that opens the text and holds no */ is the one ExtractTopComment returns. -/
theorem extractTopComment_comment {body : List UInt8} (hbody : hasCommentEnd body = false)
    (rest : List UInt8) :
    extractTopComment (47 :: 42 :: (body ++ 42 :: 47 :: rest)) = some body := by
  rw [extractTopComment, if_neg (by simp)]
  exact commentBody_append hbody rest

/-! ## The JSON object of the comment -/

theorem star_not_mem_escapeByte {c : UInt8} (hc : c ≠ 42) : 42 ∉ escapeByte c := by
  unfold escapeByte
  split_ifs with h8 h12 h10 h13 h9 h34 h92 hcontrol
  all_goals try decide
  · have hlt : c.toNat < 32 := UInt8.lt_iff_toNat_lt.mp hcontrol
    simp only [List.mem_cons, List.not_mem_nil, or_false, not_or]
    exact ⟨by decide, by decide, by decide, by decide,
      fun h => (hexDigit_ne _ (by omega)).1 h.symm, fun h => (hexDigit_ne _ (by omega)).1 h.symm⟩
  · simpa using Ne.symm hc

theorem escapeByte_head (c : UInt8) : (escapeByte c).head? = some 92 ∨ escapeByte c = [c] := by
  unfold escapeByte
  split_ifs <;> simp

/-- The text of one byte of the tenant after both escapes: no */ in it, and no '/' first. -/
theorem commentChunk_safe (c : UInt8) :
    hasCommentEnd ((escapeCommentChars [c]).flatMap escapeByte) = false ∧
      ((escapeCommentChars [c]).flatMap escapeByte).head? ≠ some 47 := by
  by_cases hc : c = 42 ∨ c = 47
  · rcases hc with rfl | rfl <;> decide
  · have hchunk : (escapeCommentChars [c]).flatMap escapeByte = escapeByte c := by
      simp [escapeCommentChars, hc]
    rw [hchunk]
    refine ⟨hasCommentEnd_eq_false_of_not_mem (star_not_mem_escapeByte (not_or.mp hc).1), ?_⟩
    rcases escapeByte_head c with h | h
    · rw [h]
      decide
    · rw [h]
      exact fun h47 => (not_or.mp hc).2 (Option.some.inj h47)

theorem flatMap_escapeByte_escapeCommentChars (str : List UInt8) :
    (escapeCommentChars str).flatMap escapeByte =
      str.flatMap fun c => (escapeCommentChars [c]).flatMap escapeByte := by
  induction str with
  | nil => rfl
  | cons c str ih =>
    rw [List.flatMap_cons, ← ih, escapeCommentChars]
    split <;> simp [escapeCommentChars, *]

/-- Chunks that hold no */ and none of which starts with '/' join into a text with none. -/
theorem hasCommentEnd_flatMap {f : UInt8 → List UInt8}
    (hf : ∀ c, hasCommentEnd (f c) = false ∧ (f c).head? ≠ some 47) (l : List UInt8) :
    hasCommentEnd (l.flatMap f) = false ∧ (l.flatMap f).head? ≠ some 47 := by
  induction l with
  | nil => exact ⟨rfl, by simp⟩
  | cons c l ih =>
    rw [List.flatMap_cons]
    refine ⟨hasCommentEnd_append (hf c).1 ih.1 ih.2, ?_⟩
    rw [List.head?_append]
    cases hfc : (f c).head? with
    | none => simpa using ih.2
    | some b => exact fun h => (hf c).2 (by simpa [hfc] using h)

theorem formatInt_safe (n : Int) :
    hasCommentEnd (formatInt n) = false ∧ (formatInt n).head? ≠ some 47 := by
  have hnot : ∀ b ∈ formatInt n, b ≠ 42 ∧ b ≠ 47 := by
    intro b hb
    rcases mem_formatInt hb with rfl | hb
    · decide
    · rw [isDigit_iff] at hb
      exact ⟨fun h => by rw [h] at hb; simp at hb, fun h => by rw [h] at hb; simp at hb⟩
  refine ⟨hasCommentEnd_eq_false_of_not_mem fun h => (hnot 42 h).1 rfl, fun h => ?_⟩
  exact (hnot 47 (List.mem_of_mem_head? h)).2 rfl

theorem head?_append_ne_slash {a b : List UInt8} (ha : a.head? ≠ some 47)
    (hb : b.head? ≠ some 47) : (a ++ b).head? ≠ some 47 := by
  rw [List.head?_append]
  cases h : a.head? <;> simp_all

theorem escapeJson_colocationIdKey : escapeJson colocationIdKey = [34, 99, 73, 100, 34] := by
  decide

theorem escapeJson_tenantIdKey : escapeJson tenantIdKey = [34, 116, 73, 100, 34] := by
  decide

/-- The object AnnotateQuery writes for a tenant holds no */, whatever the tenant's text. -/
theorem hasCommentEnd_tenantObject (colocationId : Int) (str : List UInt8) :
    hasCommentEnd (writeObject [(colocationIdKey, .number colocationId),
      (tenantIdKey, .string (escapeCommentChars str))]) = false := by
  have htext : writeObject [(colocationIdKey, .number colocationId),
      (tenantIdKey, .string (escapeCommentChars str))] =
      [123, 34, 99, 73, 100, 34, 58] ++ (formatInt colocationId ++
        ([44, 34, 116, 73, 100, 34, 58, 34] ++
          ((str.flatMap fun c => (escapeCommentChars [c]).flatMap escapeByte) ++ [34, 125]))) := by
    simp only [writeObject, writeMembers, writeMember, writeValue, escapeJson_colocationIdKey,
      escapeJson_tenantIdKey]
    simp [escapeJson, ← flatMap_escapeByte_escapeCommentChars]
  obtain ⟨hchunks, hchunksHead⟩ := hasCommentEnd_flatMap commentChunk_safe str
  obtain ⟨hdigits, hdigitsHead⟩ := formatInt_safe colocationId
  rw [htext]
  generalize (str.flatMap fun c => (escapeCommentChars [c]).flatMap escapeByte) = chunks
    at hchunks hchunksHead ⊢
  generalize formatInt colocationId = digits at hdigits hdigitsHead ⊢
  -- the pieces hold no */, and no piece after the first starts with '/'
  have hstring : hasCommentEnd (chunks ++ [34, 125]) = false :=
    hasCommentEnd_append hchunks rfl (by decide)
  have hvalue : hasCommentEnd ([44, 34, 116, 73, 100, 34, 58, 34] ++ (chunks ++ [34, 125])) =
      false := hasCommentEnd_append rfl hstring (head?_append_ne_slash hchunksHead (by decide))
  have hmembers : hasCommentEnd
      (digits ++ ([44, 34, 116, 73, 100, 34, 58, 34] ++ (chunks ++ [34, 125]))) = false :=
    hasCommentEnd_append hdigits hvalue (by simp)
  exact hasCommentEnd_append rfl hmembers (head?_append_ne_slash hdigitsHead (by simp))

/-- The object AnnotateQuery writes for a schema-based tenant holds no */. -/
theorem hasCommentEnd_schemaObject (colocationId : Int) :
    hasCommentEnd (writeObject [(colocationIdKey, .number colocationId)]) = false := by
  have htext : writeObject [(colocationIdKey, .number colocationId)] =
      [123, 34, 99, 73, 100, 34, 58] ++ (formatInt colocationId ++ [125]) := by
    simp [writeObject, writeMembers, writeMember, writeValue, escapeJson_colocationIdKey]
  obtain ⟨hdigits, hdigitsHead⟩ := formatInt_safe colocationId
  rw [htext]
  generalize formatInt colocationId = digits at hdigits hdigitsHead ⊢
  have hmembers : hasCommentEnd (digits ++ [125]) = false :=
    hasCommentEnd_append hdigits rfl (by decide)
  exact hasCommentEnd_append rfl hmembers (head?_append_ne_slash hdigitsHead (by decide))

theorem attributeString_eq (colocationId : Int) (str : List UInt8) :
    attributeString colocationId (escapeJson str) = 47 :: 42 :: (writeObject
      [(colocationIdKey, .number colocationId), (tenantIdKey, .string str)] ++ [42, 47]) := by
  simp [attributeString, writeObject, writeMembers, writeMember, writeValue,
    escapeJson_colocationIdKey, escapeJson_tenantIdKey, attributePrefixBytes]

theorem attributeStringWithoutTid_eq (colocationId : Int) :
    attributeStringWithoutTid colocationId = 47 :: 42 :: (writeObject
      [(colocationIdKey, .number colocationId)] ++ [42, 47]) := by
  simp [attributeStringWithoutTid, writeObject, writeMembers, writeMember, writeValue,
    escapeJson_colocationIdKey, attributePrefixBytes]

theorem annotateQuery_partitionKey (isTenantSchemaColocationGroup : Int → Bool)
    (queryString partitionKeyValueString : List UInt8) {colocationId : Int}
    (hvalid : colocationId ≠ invalidColocationId) :
    annotateQuery .statTenantsTrackAll isTenantSchemaColocationGroup queryString
        (some partitionKeyValueString) colocationId =
      47 :: 42 :: (writeObject [(colocationIdKey, .number colocationId),
        (tenantIdKey, .string (escapeCommentChars partitionKeyValueString))] ++
          42 :: 47 :: queryString) := by
  rw [annotateQuery, if_neg (by simp [hvalid]), attributeString_eq]
  simp

theorem annotateQuery_schema {isTenantSchemaColocationGroup : Int → Bool}
    (queryString : List UInt8) {colocationId : Int}
    (hvalid : colocationId ≠ invalidColocationId)
    (hschema : isTenantSchemaColocationGroup colocationId = true) :
    annotateQuery .statTenantsTrackAll isTenantSchemaColocationGroup queryString none
        colocationId =
      47 :: 42 :: (writeObject [(colocationIdKey, .number colocationId)] ++
        42 :: 47 :: queryString) := by
  rw [annotateQuery, if_neg (by simp [hvalid])]
  simp [hschema, attributeStringWithoutTid_eq]

/-- ExtractTopComment returns exactly the object AnnotateQuery wrote for a tenant, whatever
bytes the tenant's text holds. -/
theorem extractTopComment_annotateQuery (isTenantSchemaColocationGroup : Int → Bool)
    (queryString partitionKeyValueString : List UInt8) {colocationId : Int}
    (hvalid : colocationId ≠ invalidColocationId) :
    extractTopComment (annotateQuery .statTenantsTrackAll isTenantSchemaColocationGroup
        queryString (some partitionKeyValueString) colocationId) =
      some (writeObject [(colocationIdKey, .number colocationId),
        (tenantIdKey, .string (escapeCommentChars partitionKeyValueString))]) := by
  rw [annotateQuery_partitionKey _ _ _ hvalid]
  exact extractTopComment_comment (hasCommentEnd_tenantObject _ _) queryString

/-! ## Reading the annotation back -/

/-- With room for slen bytes and the NUL, strncpy_s copies the first slen bytes of a text
with no NUL. -/
theorem strncpyS_of_not_mem {src : List UInt8} (hsrc : 0 ∉ src) {dmax slen : Nat}
    (hroom : slen < dmax) : strncpyS dmax src slen = some (src.take slen) := by
  induction src generalizing dmax slen with
  | nil =>
    obtain ⟨dmax, rfl⟩ : ∃ d, dmax = d + 1 := ⟨dmax - 1, by omega⟩
    cases slen <;> rfl
  | cons c src ih =>
    obtain ⟨dmax, rfl⟩ : ∃ d, dmax = d + 1 := ⟨dmax - 1, by omega⟩
    cases slen with
    | zero => rfl
    | succ slen =>
      have hc : c ≠ 0 := fun h => hsrc (h ▸ List.mem_cons_self)
      rw [strncpyS, if_neg hc, ih (fun h => hsrc (List.mem_cons_of_mem c h)) (by omega)]
      rfl

/-- A query that opens with a comment holding an object that starts with cId, and no */, has
that object read by jsonb_in. -/
theorem attributeQueryIfAnnotated_comment (trackedOrSampled : Bool)
    (isTenantSchemaColocationGroup : Int → Bool) (attribution : Attribution)
    {value : Value} {members : List (List UInt8 × Value)}
    (hbody : hasCommentEnd (writeObject ((colocationIdKey, value) :: members)) = false)
    (queryString : List UInt8) (commandType : CmdType) :
    attributeQueryIfAnnotated .statTenantsTrackAll trackedOrSampled
        isTenantSchemaColocationGroup attribution
        (some (47 :: 42 :: (writeObject ((colocationIdKey, value) :: members) ++
          42 :: 47 :: queryString))) commandType =
      attributeTopComment .statTenantsTrackAll trackedOrSampled isTenantSchemaColocationGroup
        { attribution with colocationGroupId := invalidColocationId }
        (writeObject ((colocationIdKey, value) :: members)) commandType := by
  -- the object starts with the member cId, so the text starts with ATTRIBUTE_PREFIX
  obtain ⟨tail, htail⟩ : ∃ tail, writeMembers ((colocationIdKey, value) :: members) =
      writeMember (colocationIdKey, value) ++ tail := by
    cases members with
    | nil => exact ⟨[], by simp [writeMembers]⟩
    | cons next rest => exact ⟨44 :: writeMembers (next :: rest), rfl⟩
  have hstart : (47 :: 42 :: (writeObject ((colocationIdKey, value) :: members) ++
      42 :: 47 :: queryString)).take attributePrefixBytes.length = attributePrefixBytes := by
    rw [writeObject, htail, writeMember, escapeJson_colocationIdKey]
    rfl
  rw [attributeQueryIfAnnotated, if_neg (by decide)]
  simp only [hstart, if_true, extractTopComment_comment hbody]

/-- The round trip of a tenant: with tracking on and the tenant tracked or sampled, the query
AnnotateQuery wrote is attributed to its colocation group and to the first
MAX_TENANT_ATTRIBUTE_LENGTH - 1 bytes of the tenant's text, whatever bytes other than NUL the
text holds. -/
theorem attributeQueryIfAnnotated_annotateQuery_tenant (isTenantSchemaColocationGroup : Int → Bool)
    (attribution : Attribution) (queryString partitionKeyValueString : List UInt8)
    (hnul : 0 ∉ partitionKeyValueString) {colocationId : Int}
    (hvalid : colocationId ≠ invalidColocationId) (hrange : MachineInt.InInt32 colocationId)
    (commandType : CmdType) :
    attributeQueryIfAnnotated .statTenantsTrackAll true isTenantSchemaColocationGroup attribution
        (some (annotateQuery .statTenantsTrackAll isTenantSchemaColocationGroup queryString
          (some partitionKeyValueString) colocationId)) commandType =
      .ok { colocationGroupId := colocationId
            tenant := partitionKeyValueString.take (maxTenantAttributeLength - 1)
            commandType := commandType } := by
  have hescaped : 0 ∉ escapeCommentChars partitionKeyValueString := fun h =>
    (mem_escapeCommentChars h).elim hnul (by decide)
  have hdocument : parseDocument (writeObject [(colocationIdKey, .number colocationId),
      (tenantIdKey, .string (escapeCommentChars partitionKeyValueString))]) =
      some [(colocationIdKey, .number colocationId),
        (tenantIdKey, .string (escapeCommentChars partitionKeyValueString))] :=
    parseDocument_writeObject (List.cons_ne_nil _ _)
      (by simp [Value.WellFormed, colocationIdKey, tenantIdKey, hescaped])
  have hcolocation : extractFieldInt32 [(colocationIdKey, .number colocationId),
      (tenantIdKey, .string (escapeCommentChars partitionKeyValueString))] colocationIdKey
      invalidColocationId = .ok colocationId := by
    simp [extractFieldInt32, field, Value.int4, hrange, colocationIdKey, tenantIdKey]
  have htenant : extractFieldTextP [(colocationIdKey, .number colocationId),
      (tenantIdKey, .string (escapeCommentChars partitionKeyValueString))] tenantIdKey =
      some (escapeCommentChars partitionKeyValueString) := by
    simp [extractFieldTextP, field, Value.text, colocationIdKey, tenantIdKey]
  rw [annotateQuery_partitionKey _ _ _ hvalid,
    attributeQueryIfAnnotated_comment true _ _ (hasCommentEnd_tenantObject _ _)]
  simp only [attributeTopComment, hdocument, hcolocation, htenant, Option.map_some,
    unescapeCommentChars_escapeCommentChars]
  rw [attributeTask, if_neg (by simp [hvalid]), if_neg (by decide),
    strncpyS_of_not_mem hnul (by decide)]
  rfl

/-- The annotation of a tenant read back: ExtractTopComment returns the object AnnotateQuery
wrote, UnescapeCommentChars undoes the escaping of the tenant's text, and the query is
attributed to its colocation group and to the first MAX_TENANT_ATTRIBUTE_LENGTH - 1 bytes of
that text. -/
theorem attributeQueryIfAnnotated_annotateQuery (isTenantSchemaColocationGroup : Int → Bool)
    (attribution : Attribution) (queryString partitionKeyValueString : List UInt8)
    (hnul : 0 ∉ partitionKeyValueString) {colocationId : Int}
    (hvalid : colocationId ≠ invalidColocationId) (hrange : MachineInt.InInt32 colocationId)
    (commandType : CmdType) :
    extractTopComment (annotateQuery .statTenantsTrackAll isTenantSchemaColocationGroup
        queryString (some partitionKeyValueString) colocationId) =
      some (writeObject [(colocationIdKey, .number colocationId),
        (tenantIdKey, .string (escapeCommentChars partitionKeyValueString))]) ∧
    unescapeCommentChars (escapeCommentChars partitionKeyValueString) = partitionKeyValueString ∧
    attributeQueryIfAnnotated .statTenantsTrackAll true isTenantSchemaColocationGroup attribution
        (some (annotateQuery .statTenantsTrackAll isTenantSchemaColocationGroup queryString
          (some partitionKeyValueString) colocationId)) commandType =
      .ok { colocationGroupId := colocationId
            tenant := partitionKeyValueString.take (maxTenantAttributeLength - 1)
            commandType := commandType } :=
  ⟨extractTopComment_annotateQuery _ _ _ hvalid, unescapeCommentChars_escapeCommentChars _,
    attributeQueryIfAnnotated_annotateQuery_tenant _ _ _ _ hnul hvalid hrange _⟩

theorem attributeQueryIfAnnotated_annotateQuery_star_slash :
    0 ∉ ([97, 42, 47, 92, 98] : List UInt8) ∧ (7 : Int) ≠ invalidColocationId ∧
      MachineInt.InInt32 7 ∧
      extractTopComment (annotateQuery .statTenantsTrackAll (fun _ => false)
          [83, 69, 76, 69, 67, 84, 32, 49] (some [97, 42, 47, 92, 98]) 7) =
        some (writeObject [(colocationIdKey, .number 7),
          (tenantIdKey, .string (escapeCommentChars [97, 42, 47, 92, 98]))]) ∧
      unescapeCommentChars (escapeCommentChars [97, 42, 47, 92, 98]) = [97, 42, 47, 92, 98] ∧
      attributeQueryIfAnnotated .statTenantsTrackAll true (fun _ => false)
          ⟨invalidColocationId, [], .cmdUnknown⟩
          (some (annotateQuery .statTenantsTrackAll (fun _ => false)
            [83, 69, 76, 69, 67, 84, 32, 49] (some [97, 42, 47, 92, 98]) 7)) .cmdInsert =
        .ok ⟨7, ([97, 42, 47, 92, 98] : List UInt8).take (maxTenantAttributeLength - 1),
          .cmdInsert⟩ :=
  ⟨by decide, by decide, by decide,
    attributeQueryIfAnnotated_annotateQuery _ _ _ _ (by decide) (by decide) (by decide) _⟩

/-- A tenant's text of 98 ASCII bytes and a two-byte character is cut by strncpy_s between the
two bytes of the character, so the attributed tenant is not UTF-8. -/
theorem attributeQueryIfAnnotated_splits_multibyte_tenant :
    validUtf8 (List.replicate 98 97 ++ [0xC3, 0xA9]) = true ∧
      attributeQueryIfAnnotated .statTenantsTrackAll true (fun _ => false)
          ⟨invalidColocationId, [], .cmdUnknown⟩
          (some (annotateQuery .statTenantsTrackAll (fun _ => false)
            [83, 69, 76, 69, 67, 84, 32, 49] (some (List.replicate 98 97 ++ [0xC3, 0xA9])) 1))
          .cmdSelect =
        .ok ⟨1, List.replicate 98 97 ++ [0xC3], .cmdSelect⟩ ∧
      validUtf8 (List.replicate 98 97 ++ [0xC3]) = false := by
  decide +kernel

/-- A schema-based tenant's query, annotated with its colocation group alone, is attributed to
that group with an empty tenant. -/
theorem attributeQueryIfAnnotated_annotateQuery_schema {isTenantSchemaColocationGroup : Int → Bool}
    (attribution : Attribution) (queryString : List UInt8) {colocationId : Int}
    (hvalid : colocationId ≠ invalidColocationId) (hrange : MachineInt.InInt32 colocationId)
    (hschema : isTenantSchemaColocationGroup colocationId = true) (commandType : CmdType) :
    attributeQueryIfAnnotated .statTenantsTrackAll true isTenantSchemaColocationGroup attribution
        (some (annotateQuery .statTenantsTrackAll isTenantSchemaColocationGroup queryString none
          colocationId)) commandType =
      .ok { colocationGroupId := colocationId, tenant := [], commandType := commandType } := by
  have hdocument : parseDocument (writeObject [(colocationIdKey, .number colocationId)]) =
      some [(colocationIdKey, .number colocationId)] :=
    parseDocument_writeObject (List.cons_ne_nil _ _)
      (by simp [Value.WellFormed, colocationIdKey])
  have hcolocation : extractFieldInt32 [(colocationIdKey, .number colocationId)]
      colocationIdKey invalidColocationId = .ok colocationId := by
    simp [extractFieldInt32, field, Value.int4, hrange]
  have htenant : extractFieldTextP [(colocationIdKey, .number colocationId)] tenantIdKey =
      none := by
    simp [extractFieldTextP, field, colocationIdKey, tenantIdKey]
  rw [annotateQuery_schema _ hvalid hschema,
    attributeQueryIfAnnotated_comment true _ _ (hasCommentEnd_schemaObject _)]
  simp only [attributeTopComment, hdocument, hcolocation, htenant, Option.map_none]
  rw [attributeTask, if_neg (by simp [hvalid]), if_neg (by decide)]
  simp [hschema]

theorem attributeQueryIfAnnotated_annotateQuery_schema_seven :
    (7 : Int) ≠ invalidColocationId ∧ MachineInt.InInt32 7 ∧
      (fun colocationId : Int => decide (colocationId = 7)) 7 = true ∧
      attributeQueryIfAnnotated .statTenantsTrackAll true (fun colocationId => decide (colocationId = 7))
          ⟨invalidColocationId, [], .cmdUnknown⟩
          (some (annotateQuery .statTenantsTrackAll (fun colocationId => decide (colocationId = 7))
            [83, 69, 76, 69, 67, 84, 32, 49] none 7)) .cmdSelect =
        .ok { colocationGroupId := 7, tenant := [], commandType := .cmdSelect } :=
  ⟨by decide, by decide, by decide,
    attributeQueryIfAnnotated_annotateQuery_schema _ _ (by decide) (by decide) (by decide) _⟩

end Citus.StatTenants
