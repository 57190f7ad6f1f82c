import GitAgent.Hub.Schema

/-!
# Deletion

The rows that refer to a deleted row are deleted with it, except that a build with an
instance is not deleted.
-/

namespace Hub.Db

/-- The deletion of the rows whose repository, event, instance or build does not exist any
more. -/
def cascade (db : Db) : Db :=
  let events := db.events.delete fun r => (db.repositories.find r.repositoryId).isNone
  let instances := db.instances.delete fun r => (db.repositories.find r.repositoryId).isNone
  { db with
    events
    instances
    outbox := db.outbox.delete fun o => (events.find o.eventId).isNone
    journal := db.journal.delete fun j =>
      (events.find j.eventId).isNone || (instances.find j.instanceId).isNone
    subscriptions := db.subscriptions.delete fun r =>
      (db.repositories.find r.repositoryId).isNone || (db.builds.find r.buildId).isNone }

/-- `DeleteRepository`. -/
def deleteRepository (db : Db) (id : RepositoryId) : Db :=
  cascade { db with repositories := db.repositories.delete fun r => r.id = id }

/-- `DeleteBuild`. It fails when the build has an instance. -/
def deleteBuild (db : Db) (id : BuildId) (userId : UserId) : Option Db :=
  if db.instances.rows.any fun r => r.buildId = id then none
  else some (cascade { db with builds := db.builds.delete fun r => r.id = id ∧ r.userId = userId })

/-- The deletion of a user, with the repositories and the builds of the user. It fails when
a build of the user is left with an instance in a repository of somebody else. -/
def deleteUser (db : Db) (userId : UserId) : Option Db :=
  let db' := cascade
    { db with
      repositories := db.repositories.delete fun r => r.userId = userId
      builds := db.builds.delete fun r => r.userId = userId }
  if db'.instances.rows.any fun r => (db'.builds.find r.buildId).isNone then none else some db'

end Hub.Db
