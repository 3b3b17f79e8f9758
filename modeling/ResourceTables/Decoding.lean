/-
# `ResourceTables.Decoding` — declarations and settings, read from a document of any dialect
-/
import ResourceTables.Document
import ResourceTables.Encoding

namespace ResourceTables

open Dialect (required orElse)

variable {ν : Type}

/-- Reads an action of a foreign key. -/
def KeyAction.decode (d : Dialect ν) : ν → Decode KeyAction := d.choice KeyAction.words

/-- Reads a kind of relationship. -/
def RelationshipKind.decode (d : Dialect ν) : ν → Decode RelationshipKind :=
  d.choice RelationshipKind.words

/-- Reads a field definition. -/
def FieldDefinition.decode (d : Dialect ν) (node : ν) : Decode FieldDefinition := do
  let parts ← d.members
    ["name", "type", "length", "precision", "scale", "primary_key", "nullable", "unique", "index",
      "default", "doc"] node
  return {
    name := ← required parts "name" d.text
    type := ← required parts "type" d.text
    length := ← d.optional parts "length" d.natural
    precision := ← d.optional parts "precision" d.natural
    scale := ← d.optional parts "scale" d.natural
    primaryKey := ← orElse parts "primary_key" false d.flag
    nullable := ← d.optional parts "nullable" d.flag
    unique := ← orElse parts "unique" false d.flag
    index := ← orElse parts "index" false d.flag
    fallback := ← d.optional parts "default" d.text
    doc := ← d.optional parts "doc" d.text }

/-- Reads a relationship definition. -/
def RelationshipDefinition.decode (d : Dialect ν) (node : ν) :
    Decode RelationshipDefinition := do
  let parts ← d.members
    ["name", "kind", "target", "inverse", "primary", "identifying", "on_update", "on_delete"] node
  return {
    name := ← required parts "name" d.text
    kind := ← required parts "kind" (RelationshipKind.decode d)
    target := ← required parts "target" d.text
    inverse := ← d.optional parts "inverse" d.text
    primary := ← orElse parts "primary" false d.flag
    identifying := ← orElse parts "identifying" false d.flag
    onUpdate := ← d.optional parts "on_update" (KeyAction.decode d)
    onDelete := ← d.optional parts "on_delete" (KeyAction.decode d) }

/-- Reads a definition. -/
def Definition.decode (d : Dialect ν) (node : ν) : Decode Definition := do
  let parts ← d.members
    ["name", "extends", "abstract", "tablename", "tablename_generator", "doc", "mixins", "fields",
      "relationships"] node
  return {
    name := ← required parts "name" d.text
    parent := ← d.optional parts "extends" d.text
    isAbstract := ← orElse parts "abstract" false d.flag
    tableName := ← d.optional parts "tablename" d.text
    generatorName := ← d.optional parts "tablename_generator" d.text
    doc := ← d.optional parts "doc" d.text
    mixins := ← orElse parts "mixins" [] (d.list d.text)
    fields := ← orElse parts "fields" [] (d.list (FieldDefinition.decode d))
    relationships := ← orElse parts "relationships" [] (d.list (RelationshipDefinition.decode d)) }

/-- Reads declarations. -/
def Declarations.decode (d : Dialect ν) (node : ν) : Decode Declarations := do
  let parts ← d.members ["name", "resources"] node
  return {
    name := ← d.optional parts "name" d.text
    resources := ← required parts "resources" (d.list (Definition.decode d)) }

/-- Reads settings; what is absent keeps its default. -/
def Settings.decode (d : Dialect ν) (node : ν) : Decode Settings := do
  let parts ← d.members
    ["model_base", "schema", "auto_primary_key", "primary_key_column", "tablename_generator"] node
  let defaults : Settings := {}
  return {
    modelBase := ← orElse parts "model_base" defaults.modelBase d.text
    schema := ← d.optional parts "schema" d.text
    autoPrimaryKey := ← orElse parts "auto_primary_key" defaults.autoPrimaryKey d.flag
    primaryKeyColumn := ← orElse parts "primary_key_column" defaults.primaryKeyColumn d.text
    generatorName := ← orElse parts "tablename_generator" defaults.generatorName d.text }

end ResourceTables
