/-
# `ResourceTables.Inspection` — values shown with all their parts, on one line

The time at which a property was made only orders properties, so it is shown as `#`.
-/
import ResourceTables.Compiler
import ResourceTables.Text.Inspect

namespace ResourceTables

open Text (quoted quotedNames record listed possible truth)

/-- A text that may be missing. -/
def possiblyQuoted (text : Option String) : String := possible (text.map quoted)

/-- A truth value that may be missing. -/
def possibleTruth (value : Option Bool) : String := possible (value.map truth)

/-! ## Columns, tables and models -/

/-- A storage type. -/
def StorageType.inspect : StorageType → String
  | integer => "Integer"
  | bigInteger => "BigInteger"
  | smallInteger => "SmallInteger"
  | float => "Float"
  | numeric precision scale =>
    record "Numeric" [("precision", toString precision), ("scale", toString scale)]
  | string length => s!"String({possible (length.map toString)})"
  | text => "Text"
  | boolean => "Boolean"
  | date => "Date"
  | dateTime => "DateTime"
  | binary => "Binary"
  | custom name => s!"Custom({quoted name})"

/-- Column options. -/
def ColumnOptions.inspect (options : ColumnOptions) : String :=
  record "ColumnOptions" [
    ("primary_key", truth options.primaryKey),
    ("nullable", possibleTruth options.nullable),
    ("unique", truth options.unique),
    ("index", truth options.index),
    ("default", possiblyQuoted options.fallback)]

/-- A column. -/
def Column.inspect (column : Column) : String :=
  record "Column" [
    ("name", quoted column.name),
    ("sql_type", column.type.inspect),
    ("options", column.options.inspect)]

/-- An action of a foreign key. -/
def KeyAction.inspect : KeyAction → String
  | cascade => "Cascade"
  | setNull => "SetNull"
  | restrict => "Restrict"
  | noAction => "NoAction"

/-- A foreign key. -/
def ForeignKey.inspect (key : ForeignKey) : String :=
  record "ForeignKeyConstraint" [
    ("name", quoted key.name),
    ("columns", quotedNames key.columns),
    ("referred_table", quoted key.referredTable),
    ("referred_columns", quotedNames key.referredColumns),
    ("on_update", possible (key.onUpdate.map (·.inspect))),
    ("on_delete", possible (key.onDelete.map (·.inspect)))]

/-- A table. -/
def Table.inspect (table : Table) : String :=
  record "Table" [
    ("name", quoted table.name),
    ("schema", possiblyQuoted table.schema),
    ("columns", listed (table.columns.map (·.inspect))),
    ("constraints", listed (table.constraints.map (·.inspect)))]

/-- A join. -/
def JoinClause.inspect (join : JoinClause) : String :=
  record "JoinClause" [("local", quoted join.own), ("remote", quoted join.remote)]

/-- A way of loading. -/
def Loading.inspect : Loading → String
  | dynamic => "Dynamic"
  | select => "Select"

/-- A relation. -/
def Relation.inspect (r : Relation) : String :=
  record "Relation" [
    ("name", quoted r.name),
    ("target", quoted r.target),
    ("lazy", r.loading.inspect),
    ("use_list", truth r.useList),
    ("back_populates", possiblyQuoted r.backPopulates),
    ("join_clauses", listed (r.joinClauses.map (·.inspect)))]

/-- A property of a model. -/
def MappedProperty.inspect : MappedProperty → String
  | column name source => record "Column" [("name", quoted name), ("column", quoted source)]
  | relation r => s!"Relation({r.inspect})"

/-- A model. -/
def Model.inspect (model : Model) : String :=
  record "GeneratedModel" [
    ("name", quoted model.name),
    ("resource", quoted model.resource),
    ("is_abstract", truth model.isAbstract),
    ("bases", quotedNames model.bases),
    ("table", possible (model.table.map (·.inspect))),
    ("mixin_columns", listed (model.mixinColumns.map (·.inspect))),
    ("properties", listed (model.properties.map (·.inspect))),
    ("methods", quotedNames model.methodNames)]

/-! ## Declarations -/

/-- A field. -/
def Field.inspect (field : Field) : String :=
  record "Field" [
    ("storage_type", field.storage.inspect),
    ("column_options", field.options.inspect),
    ("creation_index", "#")]

/-- A kind of relationship. -/
def RelationshipKind.inspect : RelationshipKind → String
  | manyToOne => "ManyToOne"
  | oneToMany => "OneToMany"
  | oneToOne => "OneToOne"

/-- A relationship; `target` shows the resource that it was looked up to. -/
def Relationship.inspect (r : Relationship) (target : Option String) : String :=
  record "Relationship" [
    ("kind", r.kind.inspect),
    ("target", record "RelationshipTarget" [("name", quoted r.target),
      ("resolved", possible target)]),
    ("inverse", possiblyQuoted r.inverse),
    ("primary", truth r.primary),
    ("identifying", truth r.identifying),
    ("on_update", possible (r.onUpdate.map (·.inspect))),
    ("on_delete", possible (r.onDelete.map (·.inspect))),
    ("synthesized", truth r.synthesized),
    ("creation_index", "#")]

/-- A declared property. -/
def Property.inspect : Property → String
  | field f => s!"Field({f.inspect})"
  | relationship r => s!"Relationship({r.inspect none})"

/-- Resource options; of a generator only whether there is one. -/
def ResourceOptions.inspect (options : ResourceOptions) : String :=
  record "ResourceOptions" [
    ("tablename", possiblyQuoted options.tableName),
    ("tablename_generator", truth options.generator.isSome),
    ("is_abstract", truth options.isAbstract)]

/-- A resource. -/
def Resource.inspect (resource : Resource) : String :=
  let property (p : DeclaredProperty) : String := s!"({quoted p.name}, {p.property.inspect})"
  record "Resource" [
    ("name", quoted resource.name),
    ("parent", possiblyQuoted resource.parent),
    ("mixins", quotedNames resource.mixins),
    ("properties", listed (resource.properties.map property)),
    ("options", resource.options.inspect),
    ("methods", quotedNames (resource.methods.map (·.1)))]

/-! ## Descriptors and builders -/

/-- A builder. -/
def Builder.inspect : Builder → String
  | field name => record "FieldBuilder" [("name", quoted name)]
  | relationship b =>
    record "RelationshipBuilder" [
      ("name", quoted b.name),
      ("use_list", truth b.useList),
      ("force_primary_key", truth b.forcesPrimaryKey),
      ("join_clauses", listed (b.joinClauses.map (·.inspect))),
      ("columns_created", truth b.columnsCreated)]

/-- The builders of a resource. -/
def BuildPlan.inspect (plan : BuildPlan) : String :=
  record "ModelBuilder" [
    ("builders", listed (plan.builders.map (·.inspect))),
    ("finished", truth plan.finished)]

/-- A field of a descriptor. -/
def FieldEntry.inspect (e : FieldEntry) : String :=
  record "FieldEntry" [
    ("name", quoted e.name),
    ("field", e.field.inspect),
    ("declared_by", quoted e.declaredBy)]

/-- A relationship of a descriptor. -/
def RelationshipEntry.inspect (e : RelationshipEntry) : String :=
  record "RelationshipEntry" [
    ("name", quoted e.name),
    ("relationship", e.relationship.inspect (e.resolved.map (·.inspect))),
    ("declared_by", quoted e.declaredBy)]

/-- A descriptor. -/
def Descriptor.inspect (d : Descriptor) : String :=
  record "ResourceDescriptor" [
    ("resource_name", quoted d.resource),
    ("options", d.options.inspect),
    ("fields", listed (d.fields.map (·.inspect))),
    ("relationships", listed (d.relationships.map (·.inspect))),
    ("model_builder", d.plan.inspect)]

/-! ## Compilers and hosts -/

/-- Settings. -/
def Settings.inspect (s : Settings) : String :=
  record "CompilerConfig" [
    ("model_base", quoted s.modelBase),
    ("schema", possiblyQuoted s.schema),
    ("auto_primary_key", truth s.autoPrimaryKey),
    ("primary_key_column", quoted s.primaryKeyColumn),
    ("tablename_generator", quoted s.generatorName)]

/-- A compiler; of resources, models and configurators only the names. -/
def Compiler.inspect (compiler : Compiler) : String :=
  record "Ember" [
    ("config", compiler.settings.inspect),
    ("resources", quotedNames compiler.resources.names),
    ("models", quotedNames compiler.workspace.models.names),
    ("configurators", quotedNames (compiler.configurators.map (·.name)))]

/-- The extensions of a host; only their names. -/
def Extensions.inspect (extensions : Extensions) : String :=
  record "Extensions" [("names", quotedNames extensions.sortedNames)]

/-- A host. -/
def Application.inspect (app : Application) : String :=
  record "Application" [("name", quoted app.name), ("extensions", app.extensions.inspect)]

end ResourceTables
