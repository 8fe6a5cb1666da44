import RelationalMapper.Dialect
import RelationalMapper.Identity
import RelationalMapper.Query.Comparison

set_option autoImplicit false

namespace RelationalMapper

inductive Fault.Category where
  | mapping
  | unsupportedFeature
  | configuration
  | invalidOperation
  | store
  | unreadableDocument
  | unreadableFile
deriving DecidableEq, Inhabited

inductive Fault where
  | unknownEntity (name : String)
  | unmappedTable (table : String)
  | noColumn (entity column : String)
  | noProperty (entity property : String)
  | noRelation (entity relation : String)
  | uninvolvedRelation (relation entity : String)
  | noValue (entity column : String)
  | wrongWidth (entity : String) (columns values : Nat)
  | noPrimaryKey (entity : String)
  | nullComparison (comparison : Comparison) (column : String)
  | unsupportedLimit (limit : Nat) (dialect : Dialect)
  | unknownLockStrategy (column text : String)
  | nothingWritable (entity : String)
  | nothingToMatch (entity : String)
  | compoundKey (relation : String) (parentKeys childKeys : Nat)
  | nullPrimaryKey (entity : String)
  | alreadyTracked (identity : ObjectIdentity)
  | untracked (row : RowId)
  | notLive (row : RowId) (state : RowState)
  | immutableKey (column : String) (identity : ObjectIdentity)
  | notToMany (relation entity : String)
  | ownerNotLive (owner : ObjectIdentity)
  | viewNotLoaded
  | ownerWithoutKey (owner : ObjectIdentity)
  | didNotJoin (member : ObjectIdentity) (relation : String)
  | appendOnly (member : RowId) (position : Nat) (relation : String)
  | unreadableDocument
  | unreadableFile
  | refused (category : Fault.Category) (reason : String)
deriving DecidableEq, Inhabited

namespace Fault

def category : Fault → Category
  | unknownEntity _ | unmappedTable _ | noColumn .. | noProperty .. | noRelation ..
  | uninvolvedRelation .. | noValue .. | wrongWidth .. | noPrimaryKey _ => .mapping
  | nullComparison .. | unsupportedLimit .. => .unsupportedFeature
  | unknownLockStrategy .. | nothingWritable _ | nothingToMatch _ => .configuration
  | compoundKey .. | nullPrimaryKey _ | alreadyTracked _ | untracked _ | notLive ..
  | immutableKey .. | notToMany .. | ownerNotLive _ | viewNotLoaded | ownerWithoutKey _
  | didNotJoin .. | appendOnly .. => .invalidOperation
  | unreadableDocument => .unreadableDocument
  | unreadableFile => .unreadableFile
  | refused category _ => category

def reason : Fault → String
  | unknownEntity name => s!"unknown entity '{name}'"
  | unmappedTable table => s!"no entity mapped to table '{table}'"
  | noColumn entity column => s!"entity '{entity}' has no column '{column}'"
  | noProperty entity property => s!"entity '{entity}' has no property '{property}'"
  | noRelation entity relation => s!"entity '{entity}' has no relation '{relation}'"
  | uninvolvedRelation relation entity =>
    s!"relation '{relation}' on entity '{entity}' does not involve that entity"
  | noValue entity column => s!"row of entity '{entity}' has no value for column '{column}'"
  | wrongWidth entity columns values =>
    s!"entity '{entity}' has {columns} columns, row has {values} values"
  | noPrimaryKey entity => s!"entity '{entity}' has no primary key"
  | nullComparison comparison column =>
    s!"{comparison.name} has no meaning against a null value (column '{column}')"
  | unsupportedLimit limit dialect =>
    s!"fetch limit ({limit}) is not supported by the {dialect.name} dialect"
  | unknownLockStrategy column text =>
    s!"column '{column}' has unrecognized lock strategy '{text}'"
  | nothingWritable entity => s!"entity '{entity}' has no writable columns"
  | nothingToMatch entity =>
    s!"entity '{entity}' has no columns participating in optimistic lock matching"
  | compoundKey relation parentKeys childKeys =>
    s!"relation '{relation}' must join exactly one parent key column to one child key column " ++
      s!"(got {parentKeys} and {childKeys}); compound-key relations are not supported"
  | nullPrimaryKey entity => s!"primary key of a row of entity '{entity}' cannot be null"
  | alreadyTracked identity => s!"{identity.display} is already tracked by this unit of work"
  | untracked row => s!"{row.display} is not tracked by this unit of work"
  | notLive row state => s!"{row.display} is {state.name} and cannot be changed"
  | immutableKey column identity =>
    s!"primary key column '{column}' of {identity.display} cannot be changed"
  | notToMany relation entity =>
    s!"relation '{relation}' is not a to-many relation of entity '{entity}'"
  | ownerNotLive owner => s!"owner {owner.display} is not live in this unit of work"
  | viewNotLoaded => "relation view is not loaded"
  | ownerWithoutKey owner => s!"owner {owner.display} has no key to relate to"
  | didNotJoin member relation => s!"{member.display} did not join relation '{relation}'"
  | appendOnly member position relation =>
    s!"cannot insert {member.display} at position {position} of relation '{relation}': " ++
      "relation views are append-only"
  | unreadableDocument => "the document cannot be read"
  | unreadableFile => "the file cannot be read"
  | refused _ reason => reason

def Category.heading : Category → String
  | mapping => "Mapping error: "
  | unsupportedFeature => "Unsupported feature: "
  | configuration => "Configuration error: "
  | invalidOperation => "Invalid operation: "
  | store => "Store error: "
  | unreadableDocument => "Config parse error: "
  | unreadableFile => "I/O error: "

def message (fault : Fault) : String :=
  fault.category.heading ++ fault.reason

end Fault

end RelationalMapper
