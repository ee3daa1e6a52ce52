import TableGateway.Schema.Description
import TableGateway.Toml.Reader

/-!
# TOML files

The settings and the schemas that TOML documents hold. A list in the place of a structure may be
longer than the structure.

In the service, these are `PgRestConfig.from_toml_str` and `SchemaFile.from_toml_str`.
-/
namespace TableGateway.Toml

def config (s : String) : Except Fault Config := read s >>= Config.ofJson .ignored

def snapshot (s : String) : Except Fault Snapshot := read s >>= Snapshot.ofJson .ignored

end TableGateway.Toml
