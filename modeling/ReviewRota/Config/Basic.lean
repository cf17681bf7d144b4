import ReviewRota.Json.Decode

/-!
# Configuration
-/

namespace ReviewRota

structure ServerConfig where
  addr : String := "0.0.0.0:8080"
  deriving DecidableEq, Repr, Inhabited

structure DatabaseConfig where
  path : String := "reviewer-service.db"
  maxConnections : Nat := 5
  deriving DecidableEq, Repr, Inhabited

structure Config where
  server : ServerConfig := {}
  database : DatabaseConfig := {}
  deriving DecidableEq, Repr, Inhabited

def Config.defaultFile : String := "reviewer-service.toml"

open Json (Value Shape)

def Config.toJson (c : Config) : Value :=
  .record
    [("server", .record [("addr", .text c.server.addr)]),
      ("database", .record [("path", .text c.database.path),
        ("max_connections", .integer c.database.maxConnections)])]

structure ServerConfig.Draft where
  addr : Option String := none

def ServerConfig.shape : Shape ServerConfig.Draft ServerConfig where
  name := "ServerConfig"
  empty := {}
  fields :=
    [⟨"addr", true, (·.addr.isSome), Json.readText.map fun s d => { d with addr := s }⟩]
  build d :=
    let fallback : ServerConfig := {}
    .ok { addr := d.addr.getD fallback.addr }

structure DatabaseConfig.Draft where
  path : Option String := none
  maxConnections : Option Nat := none

def DatabaseConfig.shape : Shape DatabaseConfig.Draft DatabaseConfig where
  name := "DatabaseConfig"
  empty := {}
  fields :=
    [⟨"path", true, (·.path.isSome),
        (Json.readTextAs .path).map fun s d => { d with path := s }⟩,
      ⟨"max_connections", true, (·.maxConnections.isSome),
        Json.readNatural32.map fun n d => { d with maxConnections := n }⟩]
  build d :=
    let fallback : DatabaseConfig := {}
    .ok {
      path := d.path.getD fallback.path
      maxConnections := d.maxConnections.getD fallback.maxConnections }

structure Config.Draft where
  server : Option ServerConfig := none
  database : Option DatabaseConfig := none

def Config.shape : Shape Config.Draft Config where
  name := "Config"
  empty := {}
  fields :=
    [⟨"server", true, (·.server.isSome),
        ServerConfig.shape.read.map fun s d => { d with server := s }⟩,
      ⟨"database", true, (·.database.isSome),
        DatabaseConfig.shape.read.map fun s d => { d with database := s }⟩]
  build d := .ok { server := d.server.getD {}, database := d.database.getD {} }

end ReviewRota
