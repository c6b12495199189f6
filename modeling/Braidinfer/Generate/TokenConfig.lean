/-
The tokens at which generation stops, from a model directory and from the BQNT file made of it
(`TokenConfig` in `generate.rs`, the metadata of `bqnt_quantize.rs`).

The quantizer copies the JSON files of the directory into the metadata of its file, and two readers
take the same fields out of the directory and out of the copy, each with fallbacks of its own.

* `fromModelDir`, `ofMetadata`, `fromBqnt`: the two readers;
* `ModelDir.metadata`: what the quantizer embeds;
* `Reparses`: what a printed value comes back as; `ofMetadata_mapNumbers`: the reader takes no
  notice of it;
* `SameTokens`, `ofMetadata_eq_iff`: what the files of the directory have to be like;
* `metadata_of_open`: what the metadata of a file of the writer is, once it opens;
* `fromBqnt_eq_iff`: **the token configurations are equal exactly for such directories**.
-/
import Braidinfer.Bqnt.Reparse
import Braidinfer.Bqnt.Representable
import Braidinfer.Engine.ConfigParse

namespace Braidinfer.Generate

open Braidinfer.Bqnt
open Engine.ConfigParse (Number Value asU64 asBool asArray)

/-! ### The readers -/

/-- `TokenConfig` -/
@[ext]
structure TokenConfig where
  imStartId : Option UInt32
  imEndId : Option UInt32
  eosTokenIds : List UInt32
  bosTokenId : Option UInt32
  addBosToken : Option Bool
  chatTemplate : Option String
deriving DecidableEq

/-- The files of a model directory that have UTF-8 text. -/
structure ModelDir where
  configJson : Option String
  paramsJson : Option String
  tokenizerJson : Option String
  tokenizerConfigJson : Option String
  chatTemplateJinja : Option String

/-- `as_u64` and `as u32`. -/
def asU32 (v : Value) : Option UInt32 := (asU64 v).map UInt32.ofNat

/-- `pointer("/a/b")`; neither part is an index. -/
def pointer (v : Value) (a b : String) : Option Value := (v.get a).bind (Json.get b)

/-- The ids in a number or an array. -/
def eosIds (v : Value) : List UInt32 :=
  match asU32 v with
  | some id => [id]
  | none => ((asArray v).map fun values => values.filterMap asU32).getD []

/-- The ids that are not there yet are pushed. -/
def pushNew (eosTokenIds ids : List UInt32) : List UInt32 :=
  ids.foldl (fun acc eos => if eos ∈ acc then acc else acc ++ [eos]) eosTokenIds

/-- The stop tokens of the tokenizer. -/
def stopIds (tokenToId : String → Option UInt32) : List UInt32 :=
  (tokenToId "<|im_end|>").toList ++ (tokenToId "<|endoftext|>").toList

/-- `bos_token_id` of a configuration. -/
def bosTokenId (cfg : Value) : Option UInt32 :=
  ((cfg.get "bos_token_id").bind asU32).or ((pointer cfg "text_config" "bos_token_id").bind asU32)

section Readers

variable (json : SerdeJson Number) (tokenToId : String → Option UInt32)

namespace ModelDir

variable (dir : ModelDir)

/-- `config.json` -/
def config : Option Value := dir.configJson.bind json.fromStr

/-- `params.json` -/
def params : Option Value := dir.paramsJson.bind json.fromStr

/-- `tokenizer_config.json` -/
def tokenizerConfig : Option Value := dir.tokenizerConfigJson.bind json.fromStr

/-- The metadata that `bqnt_quantize` passes to `finish`, with its members in key order. -/
def metadata (modelName formatStr : String) (stats : Value) : Value :=
  let tokenizerConfig := (dir.tokenizerConfig json).getD .null
  .object [
    ("chat_template",
      ((dir.chatTemplateJinja.map .string).or (tokenizerConfig.get "chat_template")).getD .null),
    ("default_format", .string formatStr),
    ("model_config", ((dir.config json).or (dir.params json)).getD .null),
    ("model_name", .string modelName),
    ("quantization_stats", stats),
    ("quantizer_version", .string "braidinfer-bqnt-v2"),
    ("tokenizer_config", tokenizerConfig),
    ("tokenizer_json", (dir.tokenizerJson.bind json.fromStr).getD .null)]

end ModelDir

/-- `TokenConfig::from_model_dir` -/
def fromModelDir (dir : ModelDir) : TokenConfig where
  imStartId := tokenToId "<|im_start|>"
  imEndId := tokenToId "<|im_end|>"
  eosTokenIds := pushNew (stopIds tokenToId)
    ((((dir.config json).bind fun cfg => pointer cfg "text_config" "eos_token_id").map eosIds).getD
      [])
  bosTokenId := (dir.config json).bind bosTokenId
  addBosToken := (dir.tokenizerConfig json).bind fun cfg => (cfg.get "add_bos_token").bind asBool
  chatTemplate := dir.chatTemplateJinja.or
    ((dir.tokenizerConfig json).bind fun cfg => (cfg.get "chat_template").bind Json.asStr)

/-- `add_bos_token` of the embedded `tokenizer_config`, an object or a text. -/
def embeddedAddBos (tc : Value) : Option Bool :=
  match tc.asStr with
  | some s => (json.fromStr s).bind fun v => (v.get "add_bos_token").bind asBool
  | none => (tc.get "add_bos_token").bind asBool

/-- `from_bqnt`, from the metadata. -/
def ofMetadata (metadata : Value) : TokenConfig :=
  let cfg := (metadata.get "model_config").getD .null
  { imStartId := tokenToId "<|im_start|>"
    imEndId := tokenToId "<|im_end|>"
    eosTokenIds := pushNew (stopIds tokenToId)
      ((((pointer cfg "text_config" "eos_token_id").or (cfg.get "eos_token_id")).map eosIds).getD
        [])
    bosTokenId := bosTokenId cfg
    addBosToken := (metadata.get "tokenizer_config").bind (embeddedAddBos json)
    chatTemplate := ((metadata.get "chat_template").bind Json.asStr).or
      ((metadata.get "tokenizer_config").bind fun tc =>
        (tc.get "chat_template").bind Json.asStr) }

/-- `TokenConfig::from_bqnt` -/
def fromBqnt (bqnt : MmapBqnt) : TokenConfig :=
  ofMetadata json tokenToId ((bqnt.metadata.toOption.bind json.fromStr).getD .null)

end Readers

/-! ### What is read back -/

/-- A value that is printed and read back, unless it is nested too deep for that, is the same up to
its floats. -/
def Reparses (json : SerdeJson Number) (v : Value) : Prop :=
  ∀ v', json.fromStr (json.toString v) = some v' →
    ∃ r : Number → Number, (∀ n, asU64 (.number (r n)) = asU64 (.number n)) ∧ v' = v.mapNumbers r

section Floats

variable {json : SerdeJson Number} {tokenToId : String → Option UInt32} {r : Number → Number}

/-- An optional value with other floats. -/
lemma getD_mapNumbers (v : Option Value) :
    (v.map (Json.mapNumbers r)).getD .null = (v.getD .null).mapNumbers r := by
  cases v <;> rfl

lemma asBool_mapNumbers (v : Value) : asBool (v.mapNumbers r) = asBool v := by
  cases v <;> rfl

lemma pointer_mapNumbers (v : Value) (a b : String) :
    pointer (v.mapNumbers r) a b = (pointer v a b).map (Json.mapNumbers r) := by
  rw [pointer, pointer, Json.get_mapNumbers, Option.bind_map, Option.map_bind]
  exact congrArg _ (funext fun w => Json.get_mapNumbers r b w)

lemma embeddedAddBos_mapNumbers (tc : Value) :
    embeddedAddBos json (tc.mapNumbers r) = embeddedAddBos json tc := by
  rw [embeddedAddBos, embeddedAddBos, Json.asStr_mapNumbers, Json.get_mapNumbers, Option.bind_map]
  simp only [Function.comp_def, asBool_mapNumbers]

/-- Three keys are read. -/
lemma ofMetadata_congr {metadata metadata' : Value}
    (hmodel : metadata.get "model_config" = metadata'.get "model_config")
    (htokenizer : metadata.get "tokenizer_config" = metadata'.get "tokenizer_config")
    (htemplate : metadata.get "chat_template" = metadata'.get "chat_template") :
    ofMetadata json tokenToId metadata = ofMetadata json tokenToId metadata' := by
  rw [ofMetadata, ofMetadata, hmodel, htokenizer, htemplate]

variable (hr : ∀ n, asU64 (.number (r n)) = asU64 (.number n))

include hr

lemma asU32_mapNumbers (v : Value) : asU32 (v.mapNumbers r) = asU32 v := by
  cases v with
  | number n => exact congrArg (Option.map UInt32.ofNat) (hr n)
  | _ => rfl

lemma eosIds_mapNumbers (v : Value) : eosIds (v.mapNumbers r) = eosIds v := by
  rw [eosIds, eosIds, asU32_mapNumbers hr]
  cases v with
  | array values =>
      have hvalues : (values.map (Json.mapNumbers r)).filterMap asU32 = values.filterMap asU32 := by
        rw [List.filterMap_map]
        exact congrArg (values.filterMap ·) (funext fun v => asU32_mapNumbers hr v)
      rw [Json.mapNumbers, Json.mapValues_eq]
      simp only [asArray, Option.map_some, hvalues]
  | _ => rfl

lemma bosTokenId_mapNumbers (v : Value) : bosTokenId (v.mapNumbers r) = bosTokenId v := by
  rw [bosTokenId, bosTokenId, pointer_mapNumbers, Json.get_mapNumbers, Option.bind_map,
    Option.bind_map]
  simp only [Function.comp_def, asU32_mapNumbers hr]

/-- **The reader takes no notice of floats.** -/
lemma ofMetadata_mapNumbers (metadata : Value) :
    ofMetadata json tokenToId (metadata.mapNumbers r) = ofMetadata json tokenToId metadata := by
  simp only [ofMetadata, Json.get_mapNumbers, getD_mapNumbers, pointer_mapNumbers,
    bosTokenId_mapNumbers hr, ← Option.map_or, Option.map_map, Option.bind_map, Function.comp_def,
    eosIds_mapNumbers hr, embeddedAddBos_mapNumbers, Json.asStr_mapNumbers]

end Floats

/-! ### The two readers of one directory -/

/-- **The directories for which both readers find the same.**  What only `from_bqnt` looks at has
nothing new: a top-level `eos_token_id`, the tokens of a `params.json` in place of `config.json`,
and an `add_bos_token` in a text inside `tokenizer_config.json`. -/
structure SameTokens (json : SerdeJson Number) (tokenToId : String → Option UInt32)
    (dir : ModelDir) : Prop where
  topLevel : ∀ cfg, dir.config json = some cfg → pointer cfg "text_config" "eos_token_id" = none →
    ∀ val, cfg.get "eos_token_id" = some val → ∀ id ∈ eosIds val, id ∈ stopIds tokenToId
  params : dir.config json = none → ∀ cfg, dir.params json = some cfg →
    (∀ val, (pointer cfg "text_config" "eos_token_id").or (cfg.get "eos_token_id") = some val →
      ∀ id ∈ eosIds val, id ∈ stopIds tokenToId) ∧ bosTokenId cfg = none
  addBos : ∀ s, dir.tokenizerConfig json = some (.string s) →
    ((json.fromStr s).bind fun v => (v.get "add_bos_token").bind asBool) = none

/-- The directory has no token and no template that the tokenizer does not have. -/
structure SaysNothing (json : SerdeJson Number) (tokenToId : String → Option UInt32)
    (dir : ModelDir) : Prop where
  eos : ∀ cfg, dir.config json = some cfg → ∀ val,
    pointer cfg "text_config" "eos_token_id" = some val → ∀ id ∈ eosIds val, id ∈ stopIds tokenToId
  bos : ∀ cfg, dir.config json = some cfg → bosTokenId cfg = none
  addBos : ∀ cfg, dir.tokenizerConfig json = some cfg →
    (cfg.get "add_bos_token").bind asBool = none
  jinja : dir.chatTemplateJinja = none
  template : ∀ cfg, dir.tokenizerConfig json = some cfg →
    (cfg.get "chat_template").bind Json.asStr = none

section Directory

variable {json : SerdeJson Number} {tokenToId : String → Option UInt32} {dir : ModelDir}
  {modelName formatStr : String} {stats : Value}

lemma prefix_pushNew (acc ids : List UInt32) : acc <+: pushNew acc ids := by
  induction ids generalizing acc with
  | nil => exact List.prefix_refl acc
  | cons id ids ih =>
      rw [pushNew, List.foldl_cons]
      split_ifs
      · exact ih acc
      · exact (List.prefix_append acc [id]).trans (ih _)

/-- Nothing is pushed if every id is there already. -/
lemma pushNew_eq_self {acc ids : List UInt32} :
    pushNew acc ids = acc ↔ ∀ id ∈ ids, id ∈ acc := by
  induction ids generalizing acc with
  | nil => exact ⟨fun _ _ h => (by cases h), fun _ => rfl⟩
  | cons id ids ih =>
      rw [pushNew, List.foldl_cons, List.forall_mem_cons]
      by_cases hmem : id ∈ acc
      · rw [if_pos hmem]
        exact ih.trans ⟨fun h => ⟨hmem, h⟩, fun h => h.2⟩
      · rw [if_neg hmem]
        constructor
        · intro h
          have hle := (prefix_pushNew (acc ++ [id]) ids).length_le
          rw [pushNew, h, List.length_append] at hle
          exact absurd hle (by simp)
        · exact fun h => absurd h.1 hmem

/-- Ids of an optional value. -/
lemma pushNew_getD {acc : List UInt32} {val : Option Value} :
    pushNew acc ((val.map eosIds).getD []) = acc ↔
      ∀ v, val = some v → ∀ id ∈ eosIds v, id ∈ acc := by
  rw [pushNew_eq_self]
  cases val with
  | none => exact ⟨fun _ _ h => (by cases h), fun _ _ h => (by cases h)⟩
  | some v => exact ⟨fun h w hw => by rwa [← Option.some.inj hw], fun h => h v rfl⟩

variable (json tokenToId dir modelName formatStr stats)

/-- What is embedded under the three keys that are read. -/
lemma get_metadata :
    (dir.metadata json modelName formatStr stats).get "model_config" =
        some (((dir.config json).or (dir.params json)).getD .null) ∧
      (dir.metadata json modelName formatStr stats).get "tokenizer_config" =
        some ((dir.tokenizerConfig json).getD .null) ∧
      (dir.metadata json modelName formatStr stats).get "chat_template" =
        some (((dir.chatTemplateJinja.map .string).or
          (((dir.tokenizerConfig json).getD .null).get "chat_template")).getD .null) := by
  refine ⟨?_, ?_, ?_⟩ <;> simp [ModelDir.metadata, Json.get, Json.asObject, List.lookup_cons]

/-- The chat template is the same. -/
lemma chatTemplate_eq :
    (ofMetadata json tokenToId (dir.metadata json modelName formatStr stats)).chatTemplate =
      (fromModelDir json tokenToId dir).chatTemplate := by
  obtain ⟨-, htokenizer, htemplate⟩ := get_metadata json dir modelName formatStr stats
  rw [ofMetadata, htokenizer, htemplate, fromModelDir]
  cases dir.chatTemplateJinja with
  | some s => rfl
  | none =>
      cases dir.tokenizerConfig json with
      | none => rfl
      | some tc =>
          change ((((tc.get "chat_template").getD .null).asStr).or
            ((tc.get "chat_template").bind Json.asStr)) = (tc.get "chat_template").bind Json.asStr
          cases htc : tc.get "chat_template" with
          | none => rfl
          | some v =>
              change v.asStr.or v.asStr = v.asStr
              cases v.asStr <;> rfl

/-- `add_bos_token` is the same unless it is in a text. -/
lemma addBosToken_eq_iff :
    (ofMetadata json tokenToId (dir.metadata json modelName formatStr stats)).addBosToken =
        (fromModelDir json tokenToId dir).addBosToken ↔
      ∀ s, dir.tokenizerConfig json = some (.string s) →
        ((json.fromStr s).bind fun v => (v.get "add_bos_token").bind asBool) = none := by
  rw [ofMetadata, (get_metadata json dir modelName formatStr stats).2.1, fromModelDir]
  cases dir.tokenizerConfig json with
  | none => exact ⟨fun _ _ h => (by cases h), fun _ => rfl⟩
  | some tc =>
      cases tc with
      | string s =>
          constructor
          · intro h s' hs'
            obtain rfl := Json.string.inj (Option.some.inj hs')
            exact h
          · exact fun h => h s rfl
      | _ => exact ⟨fun _ _ h => (by cases h), fun _ => rfl⟩

/-- The stop tokens and the BOS token are the same as far as they are in the same place. -/
lemma eosBos_eq_iff :
    (ofMetadata json tokenToId (dir.metadata json modelName formatStr stats)).eosTokenIds =
          (fromModelDir json tokenToId dir).eosTokenIds ∧
        (ofMetadata json tokenToId (dir.metadata json modelName formatStr stats)).bosTokenId =
          (fromModelDir json tokenToId dir).bosTokenId ↔
      (∀ cfg, dir.config json = some cfg → pointer cfg "text_config" "eos_token_id" = none →
        ∀ val, cfg.get "eos_token_id" = some val → ∀ id ∈ eosIds val, id ∈ stopIds tokenToId) ∧
      (dir.config json = none → ∀ cfg, dir.params json = some cfg →
        (∀ val, (pointer cfg "text_config" "eos_token_id").or (cfg.get "eos_token_id") = some val →
          ∀ id ∈ eosIds val, id ∈ stopIds tokenToId) ∧ bosTokenId cfg = none) := by
  rw [ofMetadata, (get_metadata json dir modelName formatStr stats).1, fromModelDir]
  simp only [Option.getD_some]
  cases dir.config json with
  | some cfg =>
      simp only [Option.some_or, Option.getD_some, Option.bind_some, and_true, Option.some.injEq,
        forall_eq', reduceCtorEq, false_implies]
      cases hpointer : pointer cfg "text_config" "eos_token_id" with
      | some val => simp
      | none =>
          have hbase : pushNew (stopIds tokenToId) [] = stopIds tokenToId := rfl
          simpa [hbase] using pushNew_getD
  | none =>
      cases dir.params json with
      | none => exact ⟨fun _ => ⟨fun _ h => (by cases h), fun _ _ h => (by cases h)⟩,
          fun _ => ⟨rfl, rfl⟩⟩
      | some cfg =>
          simp only [Option.none_or, Option.getD_some, Option.bind_none, Option.some.injEq,
            forall_eq', reduceCtorEq, false_implies, implies_true, true_and, forall_const,
            Option.map_none, Option.getD_none]
          exact and_congr_left fun _ => pushNew_getD

/-- **The metadata of a directory reads as the directory** if and only if the directory is such a
one. -/
lemma ofMetadata_eq_iff :
    ofMetadata json tokenToId (dir.metadata json modelName formatStr stats) =
      fromModelDir json tokenToId dir ↔ SameTokens json tokenToId dir := by
  have hchat := chatTemplate_eq json tokenToId dir modelName formatStr stats
  have hadd := addBosToken_eq_iff json tokenToId dir modelName formatStr stats
  have heos := eosBos_eq_iff json tokenToId dir modelName formatStr stats
  constructor
  · intro h
    rw [h] at hadd heos
    obtain ⟨htop, hparams⟩ := heos.mp ⟨rfl, rfl⟩
    exact ⟨htop, hparams, hadd.mp rfl⟩
  · rintro ⟨htop, hparams, haddBos⟩
    obtain ⟨heq, hbos⟩ := heos.mpr ⟨htop, hparams⟩
    exact TokenConfig.ext rfl rfl heq hbos (hadd.mpr haddBos) hchat

/-- What is read if nothing is found. -/
lemma ofMetadata_eq_iff_saysNothing {metadata : Value}
    (hmodel : metadata.get "model_config" = none)
    (htokenizer : metadata.get "tokenizer_config" = none)
    (htemplate : metadata.get "chat_template" = none) :
    ofMetadata json tokenToId metadata = fromModelDir json tokenToId dir ↔
      SaysNothing json tokenToId dir := by
  have hread : ofMetadata json tokenToId metadata =
      ⟨tokenToId "<|im_start|>", tokenToId "<|im_end|>", stopIds tokenToId, none, none, none⟩ := by
    rw [ofMetadata, hmodel, htokenizer, htemplate]
    rfl
  rw [hread, fromModelDir, TokenConfig.ext_iff]
  simp only [true_and]
  constructor
  · rintro ⟨heos, hbos, hadd, hchat⟩
    obtain ⟨hjinja, htemplate⟩ := Option.or_eq_none_iff.mp hchat.symm
    refine ⟨fun cfg hcfg val hval => ?_, fun cfg hcfg => ?_, fun cfg hcfg => ?_, hjinja,
      fun cfg hcfg => ?_⟩
    · rw [hcfg, Option.bind_some] at heos
      exact pushNew_getD.mp heos.symm val hval
    · rw [hcfg] at hbos
      exact hbos.symm
    · rw [hcfg] at hadd
      exact hadd.symm
    · rw [hcfg] at htemplate
      exact htemplate
  · rintro ⟨heos, hbos, hadd, hjinja, htemplate⟩
    refine ⟨(pushNew_getD.mpr fun val hval => ?_).symm, ?_, ?_, ?_⟩
    · obtain ⟨cfg, hcfg, hval⟩ := Option.bind_eq_some_iff.mp hval
      exact heos cfg hcfg val hval
    · exact (Option.bind_eq_none_iff.mpr hbos).symm
    · exact (Option.bind_eq_none_iff.mpr hadd).symm
    · exact (Option.or_eq_none_iff.mpr ⟨hjinja, Option.bind_eq_none_iff.mpr htemplate⟩).symm

end Directory

/-! ### The file -/

section File

variable {json : SerdeJson Number}
  {iter : HashMap UInt64 String → List (Sigma fun _ : UInt64 => String)} {maxTensors : ℕ}
  {ts : List Tensor} {w : BqntWriter} {bytes : List UInt8} {f : MmapBqnt} {text : String}

/-- **The metadata of a file that opens** is what the writer wrote. -/
lemma metadata_of_open (hwrite : writeFile json iter maxTensors ts text = .ok (w, bytes))
    (hopen : MmapBqnt.openMmap json bytes = .ok f) (hcount : ts.length ≤ maxTensors)
    (hmax : maxTensors < 2 ^ 32)
    (hne : json.toString (w.augmentedMetadata json iter text) ≠ "")
    (hoff : Offsets maxTensors ts (utf8 (json.toString (w.augmentedMetadata json iter text)))) :
    f.metadata = .ok (json.toString (w.augmentedMetadata json iter text)) := by
  obtain ⟨hw, rfl⟩ := writeFile_ok hwrite
  obtain ⟨hheader, hmmap, -⟩ := openMmap_ok hopen
  have hts := writable_of_open hw hcount hmax hne hoff hheader
  have hfits := lt_trans (hoff.data hts.nonempty) (by decide : 2 ^ 63 < 2 ^ 64)
  obtain ⟨offset, hwritten⟩ := finish_written hts hw rfl (utf8_ne_nil hne) hfits
  obtain ⟨header, hheader', -, hoffset, hsize, -⟩ := openFile_spec hwritten hts hfits
  obtain rfl := Except.ok.inj (hheader'.symm.trans hheader)
  exact metadata_of_written hwritten hfits hmmap hoffset hsize

/-- A key of the metadata that is not that of the name table. -/
lemma get_augmentedMetadata {members : List (String × Value)} {key : String}
    (hobject : (json.fromStr text).getD (.object []) = .object members)
    (hkey : key ≠ "name_table") :
    (w.augmentedMetadata json iter text).get key = members.lookup key := by
  rw [BqntWriter.augmentedMetadata, hobject]
  exact Json.lookup_insert_of_ne hkey

end File

/-- `f` is the file that `bqnt_quantize` writes for a directory, opened: its writer `w` reserves as
many entries as the shards have tensors, `serde_json` prints some text, which comes back up to
floats, and the file is below `2 ^ 63` bytes. -/
structure FileOf (json : SerdeJson Number)
    (iter : HashMap UInt64 String → List (Sigma fun _ : UInt64 => String)) (metadata : Value)
    (maxTensors : ℕ) (ts : List Tensor) (w : BqntWriter) (f : MmapBqnt) : Prop where
  writes : writeFile json iter maxTensors ts (json.toString metadata) = .ok (w, f.mmap)
  opens : MmapBqnt.openMmap json f.mmap = .ok f
  count : ts.length ≤ maxTensors
  max : maxTensors < 2 ^ 32
  text : json.toString (w.augmentedMetadata json iter (json.toString metadata)) ≠ ""
  offsets : Offsets maxTensors ts
    (utf8 (json.toString (w.augmentedMetadata json iter (json.toString metadata))))
  printed : Reparses json metadata
  stored : Reparses json (w.augmentedMetadata json iter (json.toString metadata))

/-- The metadata comes back, when the writer adds the name table and when the file is read. -/
def ReadBack (json : SerdeJson Number)
    (iter : HashMap UInt64 String → List (Sigma fun _ : UInt64 => String)) (metadata : Value)
    (w : BqntWriter) : Prop :=
  (json.fromStr (json.toString metadata)).isSome ∧
    (json.fromStr (json.toString
      (w.augmentedMetadata json iter (json.toString metadata)))).isSome

section

variable {json : SerdeJson Number}
  {iter : HashMap UInt64 String → List (Sigma fun _ : UInt64 => String)} {metadata : Value}
  {maxTensors : ℕ} {ts : List Tensor} {w : BqntWriter} {f : MmapBqnt}
  {tokenToId : String → Option UInt32} {dir : ModelDir}

/-- The reader gets the metadata that the writer augmented, or nothing. -/
lemma FileOf.fromBqnt_eq (h : FileOf json iter metadata maxTensors ts w f) :
    fromBqnt json tokenToId f = ofMetadata json tokenToId ((json.fromStr (json.toString
      (w.augmentedMetadata json iter (json.toString metadata)))).getD .null) := by
  rw [fromBqnt, metadata_of_open h.writes h.opens h.count h.max h.text h.offsets]
  rfl

/-- **What comes back is what was embedded.** -/
lemma FileOf.fromBqnt_of_readBack {modelName formatStr : String} {stats : Value}
    (h : FileOf json iter (dir.metadata json modelName formatStr stats) maxTensors ts w f)
    (hread : ReadBack json iter (dir.metadata json modelName formatStr stats) w) :
    fromBqnt json tokenToId f =
      ofMetadata json tokenToId (dir.metadata json modelName formatStr stats) := by
  obtain ⟨hfinish, hopened⟩ := hread
  obtain ⟨v', hfinish⟩ := Option.isSome_iff_exists.mp hfinish
  obtain ⟨v, hopened⟩ := Option.isSome_iff_exists.mp hopened
  rw [h.fromBqnt_eq, hopened, Option.getD_some]
  obtain ⟨r, hr, rfl⟩ := h.stored v hopened
  obtain ⟨r', hr', rfl⟩ := h.printed v' hfinish
  have hkeys : ∀ key, key ≠ "name_table" →
      (w.augmentedMetadata json iter
        (json.toString (dir.metadata json modelName formatStr stats))).get key =
      ((dir.metadata json modelName formatStr stats).mapNumbers r').get key :=
    fun key hkey => get_augmentedMetadata (by rw [hfinish]; rfl) hkey
  rw [ofMetadata_mapNumbers hr, ofMetadata_congr (hkeys _ (by decide)) (hkeys _ (by decide))
    (hkeys _ (by decide)), ofMetadata_mapNumbers hr']

/-- What does not come back is lost. -/
lemma FileOf.fromBqnt_of_not_readBack (h : FileOf json iter metadata maxTensors ts w f)
    (hread : ¬ ReadBack json iter metadata w) :
    fromBqnt json tokenToId f = fromModelDir json tokenToId dir ↔
      SaysNothing json tokenToId dir := by
  rw [h.fromBqnt_eq]
  cases hopened : json.fromStr (json.toString
      (w.augmentedMetadata json iter (json.toString metadata))) with
  | none => exact ofMetadata_eq_iff_saysNothing json tokenToId dir rfl rfl rfl
  | some v =>
      obtain ⟨r, hr, rfl⟩ := h.stored v hopened
      have hfinish : json.fromStr (json.toString metadata) = none := by
        by_contra hne
        exact hread ⟨Option.isSome_iff_ne_none.mpr hne, by rw [hopened]; rfl⟩
      have hnone : ∀ key, key ≠ "name_table" →
          (w.augmentedMetadata json iter (json.toString metadata)).get key = none :=
        fun key hkey => get_augmentedMetadata (by rw [hfinish]; rfl) hkey
      rw [Option.getD_some, ofMetadata_mapNumbers hr]
      exact ofMetadata_eq_iff_saysNothing json tokenToId dir (hnone _ (by decide))
        (hnone _ (by decide)) (hnone _ (by decide))

end

/-- **Token configuration, from the directory and from its file.**  Take any directory, any
tokenizer, and the file that `bqnt_quantize` makes of the directory, opened.  If its metadata comes
back, the two readers find the same configuration if and only if what only one of them looks at has
nothing new; if it does not come back, if and only if the directory has nothing at all. -/
theorem fromBqnt_eq_iff (json : SerdeJson Number)
    (iter : HashMap UInt64 String → List (Sigma fun _ : UInt64 => String)) (dir : ModelDir)
    (modelName formatStr : String) (stats : Value) (maxTensors : ℕ) (ts : List Tensor)
    (w : BqntWriter) (f : MmapBqnt)
    (h : FileOf json iter (dir.metadata json modelName formatStr stats) maxTensors ts w f)
    (tokenToId : String → Option UInt32) :
    fromBqnt json tokenToId f = fromModelDir json tokenToId dir ↔
      (ReadBack json iter (dir.metadata json modelName formatStr stats) w →
        SameTokens json tokenToId dir) ∧
      (¬ ReadBack json iter (dir.metadata json modelName formatStr stats) w →
        SaysNothing json tokenToId dir) := by
  by_cases hread : ReadBack json iter (dir.metadata json modelName formatStr stats) w
  · rw [h.fromBqnt_of_readBack hread, ofMetadata_eq_iff]
    exact ⟨fun hsame => ⟨fun _ => hsame, fun hnot => absurd hread hnot⟩, fun hboth => hboth.1 hread⟩
  · rw [h.fromBqnt_of_not_readBack hread]
    exact ⟨fun hsays => ⟨fun hyes => absurd hyes hread, fun _ => hsays⟩, fun hboth => hboth.2 hread⟩

/-! ### A stop token at the top level -/

/-- A directory whose `config.json` has its stop token at the top level. -/
def eosDir : ModelDir where
  configJson := some "\x7b\"eos_token_id\":2\x7d"
  paramsJson := none
  tokenizerJson := none
  tokenizerConfigJson := none
  chatTemplateJinja := none

/-- Its `config.json`. -/
def eosConfig : Value := .object [("eos_token_id", .number (.posInt 2))]

/-- The metadata behind the name table. -/
def eosTail : List (String × Value) :=
  [("quantization_stats", .object []), ("quantizer_version", .string "braidinfer-bqnt-v2"),
    ("tokenizer_config", .null), ("tokenizer_json", .null)]

/-- The metadata before it. -/
def eosHead : List (String × Value) :=
  [("chat_template", .null), ("default_format", .string "rnf4"), ("model_config", eosConfig),
    ("model_name", .string "tiny")]

/-- The name table of a file with one tensor. -/
def eosTable : String × Value := ("name_table", .object [("0xaf63f54c86021707", .string "x")])

/-- The texts of the two ends of the metadata. -/
def eosHeadText : String :=
  "\x7b\"chat_template\":null,\"default_format\":\"rnf4\",\"model_config\":" ++
    "\x7b\"eos_token_id\":2\x7d,\"model_name\":\"tiny\","

def eosTailText : String :=
  "\"quantization_stats\":\x7b\x7d,\"quantizer_version\":\"braidinfer-bqnt-v2\"," ++
    "\"tokenizer_config\":null,\"tokenizer_json\":null\x7d"

def eosTableText : String := "\"name_table\":\x7b\"0xaf63f54c86021707\":\"x\"\x7d,"

/-- `serde_json` on the texts of the example. -/
def eosJson : SerdeJson Number where
  fromStr s :=
    if s = "\x7b\"eos_token_id\":2\x7d" then some eosConfig
    else if s = eosHeadText ++ eosTailText then some (.object (eosHead ++ eosTail))
    else if s = eosHeadText ++ eosTableText ++ eosTailText then
      some (.object (eosHead ++ eosTable :: eosTail))
    else none
  toString
    | .object members =>
        if members.length = 8 then eosHeadText ++ eosTailText
        else eosHeadText ++ eosTableText ++ eosTailText
    | _ => "null"

/-- A tokenizer with one stop token. -/
def eosTokenizer (token : String) : Option UInt32 := if token = "<|im_end|>" then some 1 else none

lemma eosMetadata_eq : eosDir.metadata eosJson "tiny" "rnf4" (.object []) =
    .object (eosHead ++ eosTail) := rfl

lemma eos_reparses (members : List (String × Value))
    (hmembers : Json.mapMembers id members = members)
    (hread : eosJson.fromStr (eosJson.toString (.object members)) = some (.object members)) :
    Reparses eosJson (.object members) := by
  intro v hv
  rw [hread] at hv
  obtain rfl := Option.some.inj hv
  exact ⟨id, fun _ => rfl, by rw [Json.mapNumbers, hmembers]⟩

lemma eosJson_fromStr (s : String) : eosJson.fromStr s =
    if s = "\x7b\"eos_token_id\":2\x7d" then some eosConfig
    else if s = eosHeadText ++ eosTailText then some (.object (eosHead ++ eosTail))
    else if s = eosHeadText ++ eosTableText ++ eosTailText then
      some (.object (eosHead ++ eosTable :: eosTail))
    else none := rfl

lemma eosJson_toString (members : List (String × Value)) :
    eosJson.toString (.object members) = if members.length = 8 then eosHeadText ++ eosTailText
      else eosHeadText ++ eosTableText ++ eosTailText := rfl

/-- The printed metadata comes back. -/
lemma eosJson_metadata : eosJson.fromStr (eosJson.toString (.object (eosHead ++ eosTail))) =
    some (.object (eosHead ++ eosTail)) := by
  have hne : eosHeadText ++ eosTailText ≠ "\x7b\"eos_token_id\":2\x7d" := by decide +kernel
  have hlength : (eosHead ++ eosTail).length = 8 := rfl
  rw [eosJson_toString, if_pos hlength, eosJson_fromStr, if_neg hne, if_pos rfl]

/-- So does the metadata with the name table. -/
lemma eosJson_augmented :
    eosJson.fromStr (eosJson.toString (.object (eosHead ++ eosTable :: eosTail))) =
      some (.object (eosHead ++ eosTable :: eosTail)) := by
  have hne : eosHeadText ++ eosTableText ++ eosTailText ≠ "\x7b\"eos_token_id\":2\x7d" := by
    decide +kernel
  have hne' : eosHeadText ++ eosTableText ++ eosTailText ≠ eosHeadText ++ eosTailText := by
    decide +kernel
  rw [eosJson_toString, if_neg (by decide), eosJson_fromStr, if_neg hne, if_neg hne', if_pos rfl]

/-- What the writer makes of the metadata. -/
lemma eos_fileMetadata : fileMetadata (·.entries) [oneTensor] (eosHead ++ eosTail) =
    .object (eosHead ++ eosTable :: eosTail) := by
  have hkey : hexKey (fnv1a64 "x") = "0xaf63f54c86021707" := by decide +kernel
  rw [fileMetadata, eosTable, ← hkey]
  rfl

/-- The file of the directory. -/
lemma eos_fileOf : ∃ w f, FileOf eosJson (·.entries)
    (eosDir.metadata eosJson "tiny" "rnf4" (.object [])) 1 [oneTensor] w f ∧
      ReadBack eosJson (·.entries) (eosDir.metadata eosJson "tiny" "rnf4" (.object [])) w := by
  have hwritable : Writable 1 [oneTensor] := by
    refine ⟨by simp, by simp, ?_, ?_, le_rfl, by decide⟩ <;> decide
  obtain ⟨w, bytes, hwrite⟩ : ∃ w bytes,
      writeFile eosJson (·.entries) 1 [oneTensor]
        (eosJson.toString (.object (eosHead ++ eosTail))) = .ok (w, bytes) := ⟨_, _, rfl⟩
  obtain ⟨hw, rfl⟩ := writeFile_ok hwrite
  have hmeta := augmentedMetadata_eq (·.entries) hw eosJson_metadata
  have hstored := eosJson_augmented
  have htext : eosJson.toString (.object (eosHead ++ eosTable :: eosTail)) ≠ "" := by
    decide +kernel
  have hoff : Offsets 1 [oneTensor]
      (utf8 (eosJson.toString (.object (eosHead ++ eosTable :: eosTail)))) :=
    ⟨fun _ => by decide +kernel, by decide, by decide +kernel⟩
  rw [← eos_fileMetadata] at hstored htext hoff
  obtain ⟨f, hopen, -, -⟩ := opened_of_writable (fun _ => .refl _) hw hwritable eosJson_metadata
    hstored htext (lt_trans (hoff.data (by simp)) (by decide))
  have hmmap := (openMmap_ok hopen).2.1
  rw [← hmeta] at htext hoff
  rw [eosMetadata_eq]
  refine ⟨w, f, ⟨by rw [hmmap]; exact hwrite, by rw [hmmap]; exact hopen, le_rfl, by decide, htext,
    hoff, eos_reparses _ rfl eosJson_metadata, ?_⟩, ?_⟩
  · rw [hmeta, eos_fileMetadata]
    exact eos_reparses _ rfl eosJson_augmented
  · rw [ReadBack, hmeta, eosJson_metadata, hstored]
    exact ⟨rfl, rfl⟩

/-- The token at the top level is new. -/
lemma eos_not_sameTokens : ¬ SameTokens eosJson eosTokenizer eosDir := by
  intro h
  have hmem := h.topLevel eosConfig rfl rfl (.number (.posInt 2)) rfl 2 (by decide)
  exact absurd hmem (by decide)

/-- The two configurations of the example. -/
theorem eos_fromBqnt_ne : ∃ w f, FileOf eosJson (·.entries)
    (eosDir.metadata eosJson "tiny" "rnf4" (.object [])) 1 [oneTensor] w f ∧
      fromBqnt eosJson eosTokenizer f ≠ fromModelDir eosJson eosTokenizer eosDir := by
  obtain ⟨w, f, hfile, hread⟩ := eos_fileOf
  refine ⟨w, f, hfile, fun heq => eos_not_sameTokens ?_⟩
  exact ((fromBqnt_eq_iff eosJson (·.entries) eosDir "tiny" "rnf4" (.object []) 1 [oneTensor] w f
    hfile eosTokenizer).mp heq).1 hread

/-- **The file may stop at a token at which the directory does not.** -/
theorem fromBqnt_differs : ¬ ∀ (json : SerdeJson Number)
    (iter : HashMap UInt64 String → List (Sigma fun _ : UInt64 => String)) (dir : ModelDir)
    (modelName formatStr : String) (stats : Value) (maxTensors : ℕ) (ts : List Tensor)
    (w : BqntWriter) (f : MmapBqnt),
    FileOf json iter (dir.metadata json modelName formatStr stats) maxTensors ts w f →
      ∀ tokenToId : String → Option UInt32,
        fromBqnt json tokenToId f = fromModelDir json tokenToId dir := by
  intro h
  obtain ⟨w, f, hfile, hread⟩ := eos_fileOf
  have heq := h _ _ _ _ _ _ _ _ w f hfile eosTokenizer
  rw [hfile.fromBqnt_of_readBack hread, ofMetadata_eq_iff] at heq
  exact eos_not_sameTokens heq

end Braidinfer.Generate
